import ScriptedServer.Proofs.Chronicle
import ScriptedServer.Proofs.Dismissal

/-!
How the server parts with a connection. It closes one only at a payload without a directive, or when the
inbound side has ended and the directive, if there was one, is over; and only the directive drops one, at
an error of its own, or a close of the listener. Each mark of a chronicle is `Founded` on what stands in
front of it, every stride keeps it so (`Connection.Accounts`), and behind a parting of the server's own
the connection is `Spent`: nothing of a directive is left to come.
-/

namespace ScriptedServer

/-! ### What stands in front -/

/-- Whether `Q` holds of each entry of a list and all that stands in front of it. -/
inductive Throughout {α : Type} (Q : List α → α → Prop) : List α → Prop
  | nil : Throughout Q []
  | snoc {xs : List α} {x : α} (h : Throughout Q xs) (hx : Q xs x) : Throughout Q (xs ++ [x])

theorem Throughout.at_split {α : Type} {Q : List α → α → Prop} {xs before after : List α} {x : α}
    (h : Throughout Q xs) (he : xs = before ++ x :: after) : Q before x := by
  induction h generalizing after with
  | nil => simp at he
  | @snoc xs y _ hy ih =>
    rcases List.eq_nil_or_concat after with rfl | ⟨after, z, rfl⟩
    · obtain ⟨rfl, hlast⟩ := List.append_inj' he rfl
      obtain rfl := (List.cons.inj hlast).1
      exact hy
    · rw [List.concat_eq_append, ← List.cons_append, ← List.append_assoc] at he
      exact ih (List.append_inj' he rfl).1

/-- Whether a mark belongs to the carrying out of a directive. -/
def Mark.ofDirective : Mark → Bool
  | seen e => e.ofDirective
  | _ => false

/-- Whether the server parts with a connection on its own: it is closed, or its directive drops it. -/
def Parts (x : Step × Mark) : Prop := x.2 = .seen .close ∨ x.2 = .seen .abort ∧ x.1 ≠ .close

/-- Whether a mark may stand behind a chronicle. -/
structure Founded (before : List (Step × Mark)) (x : Step × Mark) : Prop where
  close : x.2 = .seen .close → (∃ b, before = b ++ [(x.1, .seen (.log .requestIncorrect))])
    ∨ ∃ y ∈ before, y.2.endsInbound = true
  abort : x.2 = .seen .abort → x.1 = .close
    ∨ ∃ b cause, before = b ++ (Mark.all cause).map (x.1, ·) ∧ Dismissal cause
  directive : x.2.ofDirective = true → ∀ y ∈ before, ¬ Parts y

section Plain

variable {s : Step} {hist : List (Step × Mark)} {marks : List Mark} {events : List Event}

/-- Whether a mark is of no parting. -/
def Mark.Plain (m : Mark) : Prop := m ≠ .seen .close ∧ m ≠ .seen .abort

theorem Mark.Plain.not_parts {m : Mark} (h : m.Plain) (s : Step) : ¬ Parts (s, m) :=
  fun hp => hp.elim h.1 fun ha => h.2 ha.1

theorem not_parts_append (h : ∀ y ∈ hist, ¬ Parts y) (hm : ∀ m ∈ marks, m.Plain) :
    ∀ y ∈ hist ++ marks.map (s, ·), ¬ Parts y := by
  refine List.forall_mem_append.2 ⟨h, List.forall_mem_map.2 fun m hmem => ?_⟩
  exact (hm m hmem).not_parts s

theorem founded_plain {m : Mark} (hm : m.Plain)
    (hd : m.ofDirective = false ∨ ∀ y ∈ hist, ¬ Parts y) : Founded hist (s, m) where
  close h := absurd h hm.1
  abort h := absurd h hm.2
  directive h := hd.resolve_left (by rw [h]; decide)

theorem founded_close (h : (∃ b, hist = b ++ [(s, .seen (.log .requestIncorrect))])
    ∨ ∃ y ∈ hist, y.2.endsInbound = true) : Founded hist (s, .seen .close) where
  close _ := h
  abort := by simp
  directive := by simp [Mark.ofDirective, Event.ofDirective]

theorem throughout_plain (h : Throughout Founded hist) (hm : ∀ m ∈ marks, m.Plain)
    (hd : (∀ m ∈ marks, m.ofDirective = false) ∨ ∀ y ∈ hist, ¬ Parts y) :
    Throughout Founded (hist ++ marks.map (s, ·)) := by
  induction marks generalizing hist with
  | nil => rwa [List.map_nil, List.append_nil]
  | cons m marks ih =>
    obtain ⟨hplain, hrest⟩ := List.forall_mem_cons.1 hm
    rw [List.map_cons, List.append_cons]
    refine ih (.snoc h (founded_plain hplain (hd.imp_left fun hd => hd m (.head _)))) hrest ?_
    refine hd.imp (fun hd m hmem => hd m (.tail _ hmem)) fun hnone => ?_
    exact List.forall_mem_append.2 ⟨hnone, by simpa using hplain.not_parts s⟩

/-- What a directive shows, where nothing of a parting is in front. -/
theorem throughout_stretch {acts : List Action} {stretch : Stage → Run Progress}
    (hs : Directive.Stretch acts stretch) (st : Stage) (h : Throughout Founded hist)
    (hnone : ∀ y ∈ hist, ¬ Parts y) :
    Throughout Founded (hist ++ (Mark.all (stretch st).events).map (s, ·)) := by
  have hplain : ∀ {events : List Event}, .close ∉ events → .abort ∉ events →
      ∀ m ∈ Mark.all events, m.Plain := by
    intro events hc ha
    refine List.forall_mem_map.2 fun e he => ⟨?_, ?_⟩
    · rintro ⟨⟩
      exact hc he
    · rintro ⟨⟩
      exact ha he
  have hclose := hs.close_not_mem st
  by_cases hm : .abort ∈ (stretch st).events
  · obtain ⟨before, cause, hevents, hno, hdismissal, -⟩ := hs.dismisses hm
    rw [hevents, List.mem_append, not_or] at hclose
    have hfront := hplain hclose.1 hno
    rw [hevents, Mark.all_append, List.map_append, ← List.append_assoc]
    refine .snoc (throughout_plain h hfront (.inr hnone)) ⟨by simp, fun _ => ?_, fun _ => ?_⟩
    · refine .inr ⟨hist ++ (Mark.all before).map (s, ·), cause, ?_, hdismissal⟩
      rw [Mark.all_append, List.map_append, List.append_assoc]
    · exact not_parts_append hnone hfront
  · exact throughout_plain h (hplain hclose hm) (.inr hnone)

end Plain

namespace Connection

/-- A connection that is being torn down and has no sleep pending: its directive, if any, is over. -/
structure Spent (c : Connection) : Prop where
  torn : c.session.closing = true
  awake : c.job.isAsleep = false

/-- A connection with a chronicle that is founded throughout. -/
structure Accounts (c : Connection) (hist : List (Step × Mark)) : Prop where
  torn : c.session.closing = true ↔ ∃ y ∈ hist, y.2.tearsDown = true
  heard : c.inboundOpen = false ∨ c.session.closing = true → ∃ y ∈ hist, y.2.endsInbound = true
  spent : (∃ y ∈ hist, Parts y) → c.Spent
  founded : Throughout Founded hist

variable {s : Step} {c c' : Connection} {g : Gate} {marks : List Mark} {hist : List (Step × Mark)}
  {acts : List Action} {stretch : Stage → Run Progress}

/-! ### Stretches of a directive -/

theorem stretch_passes (hs : Directive.Stretch acts stretch) (c : Connection) (g : Gate) :
    Passes c (Mark.all (c.work g stretch).events) (c.work g stretch).connection := by
  cases hs with
  | begin => exact c.begin_passes g acts
  | advance => exact c.advance_passes g acts

theorem stretch_heard (hs : Directive.Stretch acts stretch)
    (h : (c.work g stretch).connection.inboundOpen = false
      ∨ (c.work g stretch).connection.session.closing = true) :
    (c.inboundOpen = false ∨ c.session.closing = true)
      ∨ ∃ m ∈ Mark.all (c.work g stretch).events, m.endsInbound = true := by
  rcases h with hi | hc
  · exact .inl (.inl hi)
  · rcases (stretch_passes hs c g).session.closing.1 hc with hc | ⟨m, hm, ht⟩
    · exact .inl (.inr hc)
    · exact .inr ⟨m, hm, by rw [Mark.endsInbound, ht, Bool.or_true]⟩

/-- A connection that is dropped by its directive is spent. -/
theorem stretch_spent (hs : Directive.Stretch acts stretch)
    (h : .abort ∈ (c.work g stretch).events) : (c.work g stretch).connection.Spent := by
  obtain ⟨-, -, -, -, -, e, -, hr⟩ := hs.dismisses h
  refine ⟨?_, ?_⟩
  · exact (stretch_passes hs c g).session.closing.2 (.inr ⟨_, Mark.seen_mem_all.2 h, rfl⟩)
  · rw [work, hr]
    rfl

theorem stretch_parts (hs : Directive.Stretch acts stretch) {m : Mark}
    (hm : m ∈ Mark.all (c.work g stretch).events) (hp : Parts (s, m)) :
    (c.work g stretch).connection.Spent := by
  rcases hp with hm' | ⟨hm', -⟩
  · obtain rfl : m = _ := hm'
    exact absurd (Mark.seen_mem_all.1 hm) (hs.close_not_mem _)
  · obtain rfl : m = _ := hm'
    exact stretch_spent hs (Mark.seen_mem_all.1 hm)

/-! ### Strides -/

namespace Stride

/-- The inbound side is over, or the connection torn down, only by something that ends the inbound
side. -/
theorem heard (h : Stride s c marks c') (hc : c'.inboundOpen = false ∨ c'.session.closing = true) :
    (c.inboundOpen = false ∨ c.session.closing = true) ∨ ∃ m ∈ marks, m.endsInbound = true := by
  cases h with
  | setFault | take | hear | refuseFailed | refuseBroken | release | unreleased => exact .inl hc
  | begin g d => exact stretch_heard .begin hc
  | resume g => exact stretch_heard .advance hc
  | tear ht => exact .inl (.inr ht)
  | eof => exact .inr ⟨.eof, .head _, rfl⟩
  | lose | loseBroken | loseOver => exact .inr ⟨.reset, .head _, rfl⟩
  | refuse => exact .inr ⟨.seen .close, .tail _ (.head _), rfl⟩
  | hangUp => exact .inr ⟨.seen .close, .head _, rfl⟩
  | drop => exact .inr ⟨.seen .abort, .head _, rfl⟩

/-- What is spent stays so. -/
theorem spent (h : Stride s c marks c') (hc : c.Spent) : c'.Spent := by
  cases h with
  | setFault | take | hear | eof | tear | release => exact ⟨hc.torn, hc.awake⟩
  | lose | loseBroken | loseOver | drop => exact ⟨rfl, hc.awake⟩
  | begin _ _ _ _ ho | refuse _ _ ho | refuseFailed _ _ ho | refuseBroken _ _ ho | hangUp _ _ ho
  | unreleased _ _ ho =>
    rw [hc.torn] at ho
    cases ho
  | resume g hj =>
    have ha := hc.awake
    rw [hj] at ha
    cases ha

/-- Behind a parting the connection is spent. -/
theorem parts (h : Stride s c marks c') {m : Mark} (hm : m ∈ marks) (hp : Parts (s, m)) :
    c'.Spent := by
  have haside : ∀ marks : List Mark, (∀ m ∈ marks, m.Plain) → m ∉ marks :=
    fun _ hplain hmem => (hplain m hmem).not_parts s hp
  cases h with
  | begin g d => exact stretch_parts .begin hm hp
  | resume g => exact stretch_parts .advance hm hp
  | refuse _ hj => exact ⟨rfl, by rw [hj]; rfl⟩
  | hangUp _ hj => exact ⟨rfl, hj⟩
  | drop hs =>
    obtain rfl := List.mem_singleton.1 hm
    rcases hp with h | ⟨-, h⟩
    · cases h
    · exact absurd hs h
  | setFault | take | hear | refuseFailed | refuseBroken | eof | lose | loseBroken | loseOver | tear
  | release | unreleased => exact absurd hm (haside _ (by simp [Mark.Plain, receivedLine]))

/-- What a stride shows is founded on the chronicle in front of it. -/
theorem founded (h : Stride s c marks c') (ha : c.Accounts hist) :
    Throughout Founded (hist ++ marks.map (s, ·)) := by
  have hnone : ¬ c.Spent → ∀ y ∈ hist, ¬ Parts y := fun hn y hy hp => hn (ha.spent ⟨y, hy, hp⟩)
  cases h with
  | begin g d _ _ hc =>
    refine throughout_stretch .begin _ ha.founded (hnone fun hs => ?_)
    rw [hs.torn] at hc
    cases hc
  | resume g hj =>
    refine throughout_stretch .advance _ ha.founded (hnone fun hs => ?_)
    have hawake := hs.awake
    rw [hj] at hawake
    cases hawake
  | refuse =>
    have hline : Throughout Founded (hist ++ [(s, .seen (.log .requestIncorrect))]) :=
      ha.founded.snoc (founded_plain (by simp [Mark.Plain]) (.inl rfl))
    have hclosed := hline.snoc (founded_close (.inl ⟨hist, rfl⟩))
    rwa [List.append_assoc] at hclosed
  | hangUp _ _ _ _ hi =>
    have hclosed : Throughout Founded (hist ++ [(s, .seen .close)]) :=
      ha.founded.snoc (founded_close (.inr (ha.heard (.inl hi))))
    rw [List.map_cons, List.append_cons]
    exact throughout_plain hclosed (by simp [Mark.Plain])
      (.inl (by simp [Mark.ofDirective, Event.ofDirective]))
  | drop hs hr hrest =>
    refine ha.founded.snoc ⟨by simp, fun _ => .inl hs, fun _ => hnone fun hspent => ?_⟩
    -- what is at rest and torn down is asleep while it is handled
    cases hi : c.inboundOpen with
    | true =>
      have hopen := hrest.open_of_inboundOpen hi
      rw [hspent.torn] at hopen
      cases hopen
    | false =>
      have hasleep := hrest.asleep_of_running hi hr
      rw [hspent.awake] at hasleep
      cases hasleep
  | setFault | take | hear | refuseFailed | refuseBroken | eof | lose | loseBroken | loseOver | tear
  | release | unreleased =>
    exact throughout_plain ha.founded (by simp [Mark.Plain, receivedLine])
      (.inl (by simp [Mark.ofDirective, Event.ofDirective, receivedLine]))

/-- A connection comes to be torn down only by something that is recorded. -/
theorem torn (h : Stride s c marks c') : c'.session.closing = true ↔
    c.session.closing = true ∨ ∃ m ∈ marks, m.tearsDown = true := by
  cases h with
  | begin g d => exact (c.begin_passes g d).session.closing
  | resume g => exact (c.advance_passes g _).session.closing
  | refuse | lose | loseBroken | loseOver | hangUp | drop => simp [Mark.tearsDown, Session.lose]
  | setFault | take | hear | refuseFailed | refuseBroken | eof | tear | release | unreleased =>
    simp [Mark.tearsDown, receivedLine]

end Stride

theorem Accounts.stride (ha : c.Accounts hist) (h : Stride s c marks c') :
    c'.Accounts (hist ++ marks.map (s, ·)) where
  torn := by
    rw [h.torn, ha.torn]
    simp [or_and_right, exists_or]
  heard hc := by
    rcases h.heard hc with hbefore | ⟨m, hm, hend⟩
    · obtain ⟨y, hy, hend⟩ := ha.heard hbefore
      exact ⟨y, List.mem_append_left _ hy, hend⟩
    · exact ⟨(s, m), List.mem_append_right _ (List.mem_map_of_mem hm), hend⟩
  spent := by
    rintro ⟨y, hy, hp⟩
    rcases List.mem_append.1 hy with hy | hy
    · exact h.spent (ha.spent ⟨y, hy, hp⟩)
    · obtain ⟨m, hm, rfl⟩ := List.mem_map.1 hy
      exact h.parts hm hp
  founded := h.founded ha

/-- A turn in which a directive ends without dropping its connection leaves the connection as it is, if
more may come in. -/
theorem rest_stretch (hs : Directive.Stretch acts stretch) (hi : c.inboundOpen = true)
    (hc : c.session.closing = false) (hm : .abort ∉ (stretch ⟨c.session, some g⟩).events) :
    rest (c.work g stretch) = c.work g stretch := by
  have hopen : (c.work g stretch).connection.session.closing = false := by
    rw [work, hs.tried hm, Directive.tried_closing]
    exact hc
  have hrest : AtRest (c.work g stretch).connection :=
    ⟨fun _ => hopen, fun hn => absurd (hi.symm.trans hn) Bool.noConfusion⟩
  rw [rest, hrest.settle, List.append_nil]

end Connection

/-! ### Whole runs -/

theorem StrideInvariant.accounts : StrideInvariant (fun _ => True) Connection.Accounts where
  welcomed _ _ _ _ :=
    ⟨by simp [Mark.tearsDown], by simp, by simp [Parts],
      .snoc .nil (founded_plain (by simp [Mark.Plain]) (.inl rfl))⟩
  unlabelled _ _ _ _ := ⟨by simp, by simp, by simp, .nil⟩
  stride _ h ha := ha.stride h

/-- What befalls a connection of a run is founded throughout. -/
theorem Listener.chronicle_founded (host : Option Text) (port : Option Int)
    (directive : Option Directive) (binding : Binding) (order : SetOrder) (steps : List Step) (n : Nat) :
    Throughout Founded ((Listener.new host port directive binding order).chronicle n steps) := by
  rcases StrideInvariant.accounts.tracks (fun _ (_ : _ ∈ steps) => trivial) host port directive
    binding order n with ⟨-, hnil⟩ | ⟨c, -, ha⟩
  · rw [hnil]
    exact .nil
  · exact ha.founded

/-- Behind a parting nothing of a directive is seen. -/
theorem Throughout.directive_over {hist before after : List (Step × Mark)} {x : Step × Mark}
    (h : Throughout Founded hist) (he : hist = before ++ x :: after) (hp : Parts x) :
    ∀ y ∈ after, y.2.ofDirective = false := by
  intro y hy
  obtain ⟨front, rest, rfl⟩ := List.append_of_mem hy
  have hsplit : hist = (before ++ x :: front) ++ y :: rest := by rw [he]; simp
  have hfounded := h.at_split hsplit
  cases hd : y.2.ofDirective with
  | false => rfl
  | true => exact absurd hp (hfounded.directive hd x (by simp))

/-- A directive drops its connection at most once. -/
theorem Throughout.dropped_once {hist : List (Step × Mark)} (h : Throughout Founded hist) :
    (hist.filter fun x => x.2 = .seen .abort ∧ x.1 ≠ .close).length ≤ 1 := by
  induction h with
  | nil => simp
  | @snoc hist x _ hx ih =>
    rw [List.filter_append]
    by_cases hd : x.2 = .seen .abort ∧ x.1 ≠ .close
    · have hnone : hist.filter (fun x => x.2 = .seen .abort ∧ x.1 ≠ .close) = [] := by
        refine List.filter_eq_nil_iff.2 fun y hy hdrop => ?_
        exact hx.directive (by rw [hd.1]; rfl) y hy (.inr (of_decide_eq_true hdrop))
      rw [hnone, List.nil_append]
      exact List.length_filter_le _ [x]
    · have hother : [x].filter (fun x => x.2 = .seen .abort ∧ x.1 ≠ .close) = [] := by simp [hd]
      rwa [hother, List.append_nil]

/-- A connection is closed only right behind the line that a payload holds no directive, or when its
inbound side has ended and its directive is over; and dropped only by a close of the listener, or by its
directive, as the last thing that is seen of that, once, right behind the error of an action that is
unknown or counts without a numeral. So one whose directive has ended with all actions done, or with a
failure of input and output, is left as the actions left it. -/
theorem parts_for_cause :
    (∀ (host : Option Text) (port : Option Int) (directive : Option Directive) (binding : Binding)
        (order : SetOrder) (steps : List Step) (n : Nat),
      let l := Listener.new host port directive binding order
      let hist := l.chronicle n steps
      (∀ before s after, hist = before ++ (s, .seen .close) :: after →
        (∃ b, before = b ++ [(s, .seen (.log .requestIncorrect))])
          ∨ (∃ y ∈ before, y.2.endsInbound = true) ∧ (∀ y ∈ after, y.2.ofDirective = false)
            ∧ ∀ c, (l.after steps).connections[n]? = some c → c.job.isAsleep = false)
      ∧ (∀ before s after, hist = before ++ (s, .seen .abort) :: after → s = .close
          ∨ (∃ b cause, before = b ++ (Mark.all cause).map (s, ·) ∧ Dismissal cause)
            ∧ ∀ y ∈ after, y.2.ofDirective = false)
      ∧ (hist.filter fun x => x.2 = .seen .abort ∧ x.1 ≠ .close).length ≤ 1
      ∧ ∀ c, (l.after steps).connections[n]? = some c →
          (c.session.closing = true ↔ ∃ x ∈ hist, x.2.tearsDown = true))
    ∧ ∀ acts stretch, Directive.Stretch acts stretch → ∀ (c : Connection) (g : Gate) (e : Ending),
        let st : Stage := ⟨c.session, some g⟩
        (stretch st).result = .ended e → (e = .done ∨ ∃ a f, e = .aborted (.failed a f)) →
          (stretch st).stage = Directive.tried acts st
          ∧ .close ∉ (stretch st).events ∧ .abort ∉ (stretch st).events
          ∧ (c.inboundOpen = true → c.session.closing = false →
              Connection.rest (c.work g stretch) = c.work g stretch) := by
  constructor
  · intro host port directive binding order steps n l hist
    have hfounded : Throughout Founded hist :=
      Listener.chronicle_founded host port directive binding order steps n
    have haccounts : ∀ c, (l.after steps).connections[n]? = some c → c.Accounts hist :=
      fun c hc => StrideInvariant.accounts.holds (fun _ _ => trivial) hc
    refine ⟨fun before s after he => ?_, fun before s after he => ?_, hfounded.dropped_once,
      fun c hc => (haccounts c hc).torn⟩
    · have hp : Parts (s, .seen .close) := .inl rfl
      refine ((hfounded.at_split he).close rfl).imp_right fun hend => ?_
      refine ⟨hend, hfounded.directive_over he hp, fun c hc => ?_⟩
      exact ((haccounts c hc).spent ⟨_, by rw [he]; simp, hp⟩).awake
    · by_cases hs : s = .close
      · exact .inl hs
      · refine .inr ⟨((hfounded.at_split he).abort rfl).resolve_left hs, ?_⟩
        exact hfounded.directive_over he (.inr ⟨rfl, hs⟩)
  · intro acts stretch hs c g e st hr he
    have hm := hs.abort_not_mem hr he
    exact ⟨hs.tried hm, hs.close_not_mem st, hm, fun hi hc => Connection.rest_stretch hs hi hc hm⟩

/-- One connection is dropped by its directive, one is hung up at its payload, and one is left alone. -/
theorem parts_for_cause_dropped :
    let read : Step := .receive 0 (Utf8.encode "ACT[CLOSE,NOPE]".toList) false
    let steps : List Step :=
      [.start, .connect none {}, read, .connect none {}, .receive 1 [0x78] false]
    let l := Listener.new none (some 0) none .asked .ofAcceptance
    let c : Connection := { session := { peer := [] } }
    let close : Action := ⟨"CLOSE".toList, none⟩
    (∃ b cause, (l.chronicle 0 steps).take 5 = b ++ (Mark.all cause).map (read, ·) ∧ Dismissal cause)
      ∧ (∀ y ∈ (l.chronicle 0 steps).drop 6, y.2.ofDirective = false)
      ∧ (l.chronicle 1 steps).filter (fun x => x.2 = .seen .close ∨ x.2 = .seen .abort)
          = [(.receive 1 [0x78] false, .seen .close)]
      ∧ Connection.rest (c.work {} (Directive.begin [close])) = c.work {} (Directive.begin [close]) := by
  intro read steps l c close
  obtain ⟨-, haborted, -⟩ := parts_for_cause.1 none (some 0) none .asked .ofAcceptance steps 0
  have split_at : ∀ {xs : List (Step × Mark)} {x : Step × Mark} (i : Nat), xs[i]? = some x →
      xs = xs.take i ++ x :: xs.drop (i + 1) := by
    intro xs x i hx
    obtain ⟨hlt, rfl⟩ := List.getElem?_eq_some_iff.1 hx
    rw [List.getElem_cons_drop, List.take_append_drop]
  have habort : (l.chronicle 0 steps)[5]? = some (read, .seen .abort) := by
    rfl
  have hsplit : l.chronicle 0 steps
      = (l.chronicle 0 steps).take 5 ++ (read, .seen .abort) :: (l.chronicle 0 steps).drop 6 :=
    split_at 5 habort
  have hhung : (l.chronicle 1 steps).filter (fun x => x.2 = .seen .close ∨ x.2 = .seen .abort)
      = [(.receive 1 [0x78] false, .seen .close)] := by
    have hfront : (l.chronicle 1 (steps.take 4)).filter
        (fun x => x.2 = .seen .close ∨ x.2 = .seen .abort) = [] := by
      rw [List.filter_eq_nil_iff]
      decide
    have hlast : (Step.marks 1 (.receive 1 [0x78] false)
        ((l.after (steps.take 4)).step (.receive 1 [0x78] false)).2).filter
          (fun m => m = .seen .close ∨ m = .seen .abort) = [.seen .close] := by decide
    rw [← List.take_append_drop 4 steps, Listener.chronicle_append, List.filter_append, hfront]
    simp only [steps, List.drop_succ_cons, List.drop_zero, Listener.chronicle, List.append_nil,
      List.nil_append, List.filter_map, Function.comp_def]
    rw [hlast]
    rfl
  obtain ⟨hcause, hover⟩ := (haborted _ _ _ hsplit).resolve_left (by decide)
  obtain ⟨-, -, -, hleft⟩ := parts_for_cause.2 [close] _ .begin c {} .done rfl (.inl rfl)
  exact ⟨hcause, hover, hhung, hleft rfl rfl⟩

end ScriptedServer
