import ScriptedServer.Proofs.Gatekeeping
import ScriptedServer.Proofs.Steady

/-!
The listener is stopped once for each start that succeeds, whoever stops it: an action of a directive, a
shutdown or a close. Whether connections are accepted can be read off what was seen, for the gate listens
only behind a start that no stop has followed (`Gate.Shifts.serving`), and a gate that does not listen
stays so and is not stopped again until the next start succeeds (`Gate.Shifts.stays_shut`). A stop that
fails moves nothing (`Gate.Shifts.unmoved`).
-/

namespace ScriptedServer

/-! ### Stops in what is seen -/

namespace Trace

/-- Whether no start of the listener succeeds in a trace. -/
def Unopened (t : Trace) : Prop := ∀ bound, (.listener, .log (.listening bound)) ∉ t

/-- Whether the listener is not stopped in a trace. -/
def Unstopped (t : Trace) : Prop := ∀ o, (o, .serverClose) ∉ t

/-- Whether no stop has followed the last start that succeeded. -/
def Serving (t : Trace) : Prop :=
  ∃ (before : Trace) (bound : Option Int) (since : Trace),
    t = before ++ (.listener, .log (.listening bound)) :: since ∧ since.Unopened ∧ since.Unstopped

/-- Whether a stop was seen and no start has succeeded since. -/
def Ceased (t : Trace) : Prop :=
  ∃ (pre : Trace) (o : Origin) (post : Trace), t = pre ++ (o, .serverClose) :: post ∧ post.Unopened

/-- A trace in which every stop is the first behind a start that has succeeded, is announced at once, and
is announced nowhere else. -/
structure StopsOnce (t : Trace) : Prop where
  once : ∀ (pre : Trace) (o : Origin) (post : Trace), t = pre ++ (o, .serverClose) :: post →
    pre.Serving
  line : ∀ (pre : Trace) (o : Origin) (post : Trace), t = pre ++ (o, .serverClose) :: post →
    ∃ rest, post = (o, .log .stoppedListening) :: rest
  event : ∀ (pre : Trace) (o : Origin) (post : Trace),
    t = pre ++ (o, .log .stoppedListening) :: post → ∃ before, pre = before ++ [(o, .serverClose)]

variable {t u : Trace}

theorem unopened_append : (t ++ u).Unopened ↔ t.Unopened ∧ u.Unopened := by
  simp [Unopened, forall_and]

theorem unstopped_append : (t ++ u).Unstopped ↔ t.Unstopped ∧ u.Unstopped := by
  simp [Unstopped, forall_and]

theorem unstopped_aside {o : Origin} {e : Event} (he : e.isStop = false) :
    Unstopped [(o, e)] := by
  intro o' hm
  cases List.mem_singleton.1 hm
  cases he

theorem Serving.append (h : t.Serving) (ho : u.Unopened) (hs : u.Unstopped) : (t ++ u).Serving := by
  obtain ⟨before, bound, since, rfl, hopened, hstopped⟩ := h
  refine ⟨before, bound, since ++ u, by simp, ?_, ?_⟩
  · exact unopened_append.2 ⟨hopened, ho⟩
  · exact unstopped_append.2 ⟨hstopped, hs⟩

/-- No connection starts the listener. -/
theorem unopened_of_connection (n : Nat) (events : List Event) :
    (of (.connection n) events).Unopened := by
  intro bound hm
  cases (mem_of.1 hm).1

end Trace

namespace Gate

variable {allowed : Step → Prop} {g g' : Gate} {t : Trace}

theorem setCloseFault_isListening (g : Gate) (f : Option Fault) :
    (g.setCloseFault f).isListening = g.isListening := by
  rw [isListening, isListening, setCloseFault]
  cases g.acceptor <;> rfl

/-- A gate listens only behind a start that no stop has followed. -/
theorem Shifts.serving (h : Shifts allowed g t g') (hg : g.isListening = false)
    (hl : g'.isListening = true) : t.Serving := by
  induction h with
  | refl =>
    rw [hg] at hl
    cases hl
  | @snoc t u g' g'' _ hs ih =>
    cases hs with
    | aside n he => exact (ih hl).append (by simp [Trace.Unopened]) (Trace.unstopped_aside he)
    | stop o ha hs hf => cases hl
    | start host port bound =>
      refine ⟨t ++ [(.listener, .bind host port)], bound, [], by simp, ?_, ?_⟩
      · simp [Trace.Unopened]
      · simp [Trace.Unstopped]
    | startFailed host port =>
      exact (ih hl).append (by simp [Trace.Unopened]) (by simp [Trace.Unstopped])
    | setCloseFault hf =>
      rw [setCloseFault_isListening] at hl
      exact (ih hl).append (by simp [Trace.Unopened]) (by simp [Trace.Unstopped])

/-- A gate that does not listen stays so until a start succeeds, and is not stopped again. -/
theorem Shifts.stays_shut (h : Shifts allowed g t g') (hg : g.isListening = false)
    (ho : t.Unopened) : g'.isListening = false ∧ t.Unstopped := by
  induction h with
  | refl => exact ⟨hg, by simp [Trace.Unstopped]⟩
  | @snoc t u g' g'' _ hs ih =>
    obtain ⟨hfront, hlast⟩ := Trace.unopened_append.1 ho
    obtain ⟨hl, hstopped⟩ := ih hfront
    have hquiet : ∀ {v : Trace}, v.Unstopped → (t ++ v).Unstopped :=
      fun hv => Trace.unstopped_append.2 ⟨hstopped, hv⟩
    cases hs with
    | aside n he => exact ⟨hl, hquiet (Trace.unstopped_aside he)⟩
    | stop o ha hs hf => simp [isListening, ha, hs] at hl
    | start host port bound => exact absurd (.tail _ (.head _)) (hlast bound)
    | startFailed host port => exact ⟨hl, hquiet (by simp [Trace.Unstopped])⟩
    | setCloseFault hf =>
      exact ⟨(setCloseFault_isListening _ _).trans hl, hquiet (by simp [Trace.Unstopped])⟩

/-- A gate that a stop fails at is not moved by any directive. -/
theorem Shifts.unmoved {a : Acceptor} {f : Fault} (h : Shifts (fun _ => False) g t g')
    (ha : g.acceptor = some a) (hf : a.closeFault = some f) (ht : ∀ x ∈ t, x.1 ≠ .listener) :
    g' = g := by
  induction h with
  | refl => rfl
  | @snoc t u g' g'' _ hs ih =>
    obtain ⟨hfront, hlast⟩ := List.forall_mem_append.1 ht
    obtain rfl := ih hfront
    cases hs with
    | aside => rfl
    | stop o ha' _ hf' =>
      cases ha'.symm.trans ha
      cases hf'.symm.trans hf
    | start | startFailed => exact absurd rfl (hlast _ (.head _))
    | setCloseFault hf => exact hf.elim

/-- The fault that stops fail with is one that was there at first, or that a step has set. -/
theorem Shifts.closeFault (h : Shifts allowed g t g') (P : Fault → Prop)
    (hset : ∀ f, allowed (.setCloseFault (some f)) → P f)
    (hg : ∀ a f, g.acceptor = some a → a.closeFault = some f → P f) {a : Acceptor} {f : Fault}
    (ha : g'.acceptor = some a) (hf : a.closeFault = some f) : P f := by
  induction h generalizing a f with
  | refl => exact hg a f ha hf
  | snoc _ hs ih =>
    cases hs with
    | aside => exact ih ha hf
    | stop o ha' _ hf' =>
      cases ha
      cases hf'.symm.trans hf
    | start =>
      cases ha
      cases hf
    | startFailed => exact ih ha hf
    | setCloseFault hallowed =>
      obtain ⟨b, -, rfl⟩ := Option.map_eq_some_iff.1 ha
      subst hf
      exact hset f hallowed

theorem shut_error {f : Fault} (h : g.shut.error = some f) :
    ∃ a, g.acceptor = some a ∧ a.closeFault = some f := by
  cases hl : g.isListening with
  | false =>
    rw [shut_of_not_listening hl] at h
    cases h
  | true =>
    obtain ⟨a, ha, hs⟩ := (Option.any_eq_true _ _).1 hl
    cases hf : a.closeFault with
    | none =>
      rw [shut_of_listening ha hs hf] at h
      cases h
    | some f' =>
      rw [shut_of_fault ha hs hf] at h
      exact ⟨a, ha, hf.trans h⟩

/-- A stop is seen first of all in its shift, and is announced at once. -/
theorem Shift.of_stop {u₁ u₂ : Trace} {o : Origin}
    (h : Shift allowed g (u₁ ++ (o, .serverClose) :: u₂) g') : u₁ = []
      ∧ u₂ = [(o, .log .stoppedListening)] ∧ g.isListening = true ∧ g'.isListening = false := by
  cases u₁ with
  | nil =>
    cases h with
    | aside n he => cases he
    | stop o ha hs hf => exact ⟨rfl, rfl, by simp [isListening, ha, hs], rfl⟩
  | cons x u₁ =>
    rw [List.cons_append] at h
    generalize hu : u₁ ++ (o, .serverClose) :: u₂ = u at h
    cases h <;> simp [List.append_eq_singleton_iff] at hu

/-- The announcement of a stop stands right behind it. -/
theorem Shift.of_line {u₁ u₂ : Trace} {o : Origin}
    (h : Shift allowed g (u₁ ++ (o, .log .stoppedListening) :: u₂) g') :
    u₁ = [(o, .serverClose)] := by
  cases u₁ with
  | nil =>
    cases h with
    | aside n he => cases he
  | cons x u₁ =>
    rw [List.cons_append] at h
    generalize hu : u₁ ++ (o, .log .stoppedListening) :: u₂ = u at h
    cases h with
    | stop o' ha hs hf =>
      have hboth : u₁ = [] ∧ o = o' ∧ u₂ = [] := by
        simpa [List.append_eq_singleton_iff] using hu
      rw [hboth.1, hboth.2.1]
    | aside | start | startFailed => simp [List.append_eq_singleton_iff] at hu

/-- What is seen of a gate that did not listen at first. -/
theorem Shifts.stopsOnce (h : Shifts allowed g t g') (hg : g.isListening = false) :
    t.StopsOnce where
  once pre o post he := by
    obtain ⟨t₁, g₁, u₁, u₂, g₂, t₂, hbefore, hshift, -, rfl, -⟩ := h.at_split he
    obtain ⟨rfl, -, hl, -⟩ := hshift.of_stop
    rw [List.append_nil]
    exact hbefore.serving hg hl
  line pre o post he := by
    obtain ⟨t₁, g₁, u₁, u₂, g₂, t₂, -, hshift, -, -, rfl⟩ := h.at_split he
    obtain ⟨-, rfl, -⟩ := hshift.of_stop
    exact ⟨t₂, rfl⟩
  event pre o post he := by
    obtain ⟨t₁, g₁, u₁, u₂, g₂, t₂, -, hshift, -, rfl, -⟩ := h.at_split he
    obtain rfl := hshift.of_line
    exact ⟨t₁, rfl⟩

/-- Once a stop was seen and no start has succeeded since, the gate does not listen. -/
theorem Shifts.ceased (h : Shifts allowed g t g') (hc : t.Ceased) : g'.isListening = false := by
  obtain ⟨pre, o, post, he, ho⟩ := hc
  obtain ⟨t₁, g₁, u₁, u₂, g₂, t₂, -, hshift, hbehind, -, rfl⟩ := h.at_split he
  obtain ⟨-, -, -, hl⟩ := hshift.of_stop
  exact (hbehind.stays_shut hl (Trace.unopened_append.1 ho).2).1

end Gate

/-! ### Stops by directives -/

section Shut

variable {g : Gate} {a : Action} {st : Stage}

theorem Action.attempt_shut_of_not_listening (hk : a.kind = some .shut) (hg : st.gate = some g)
    (hl : g.isListening = false) :
    a.attempt st = { state := st, events := [.log (.executing a)] } := by
  have hst : { st with gate := some g } = st := by rw [← hg]
  simp only [Action.attempt, hk, Action.perform, hg, Gate.shut_of_not_listening hl, Stage.onGate, hst,
    Option.map_none]

theorem Action.attempt_shut_of_fault (hk : a.kind = some .shut) (hg : st.gate = some g)
    {acceptor : Acceptor} {f : Fault} (ha : g.acceptor = some acceptor)
    (hs : acceptor.serving = true) (hf : acceptor.closeFault = some f) (he : f.isExternal = true) :
    a.attempt st =
      { state := st, events := [.log (.executing a)], error := some (.error (.failed a.name f)) } := by
  have hst : { st with gate := some g } = st := by rw [← hg]
  simp only [Action.attempt, hk, Action.perform, hg, Gate.shut_of_fault ha hs hf, Stage.onGate, hst,
    Option.map_some, Trouble.ofFault, he, if_true]

end Shut

namespace Directive

variable {g : Gate} {front : List Action} {a : Action} {s : Session}

/-- Actions behind others that have gone through are gone on with from where these have led. -/
theorem advance_append {st : Stage} (h : (advance front st).result = .ended .done)
    (more : List Action) : advance (front ++ more) st =
      (advance more (advance front st).stage).after (advance front st).events := by
  induction front generalizing st with
  | nil => rfl
  | cons b front ih =>
    cases he : (b.attempt st).error with
    | some t =>
      rw [advance_trouble front he] at h
      exact absurd (Progress.ended.inj h) (t.conclude_ne_done _)
    | none =>
      by_cases hk : b.kind = some .wait
      · rw [advance_wait front he hk] at h
        cases h
      · rw [advance_go front he hk] at h ⊢
        rw [List.cons_append, advance_go _ he hk, ih h]
        simp [Run.after]

/-- A directive finds a gate that does not listen as it found it, or stops it first. -/
theorem advance_not_listening
    (h : g.isListening = false ∨ .serverClose ∈ (advance front ⟨s, some g⟩).events) :
    ∃ g', (advance front ⟨s, some g⟩).stage.gate = some g' ∧ g'.isListening = false := by
  obtain ⟨g', hg', hshifts⟩ := advance_shifts (fun _ => False) 0 front s g
  refine ⟨g', hg', ?_⟩
  have hopened := Trace.unopened_of_connection 0 (advance front ⟨s, some g⟩).events
  rcases h with hl | hm
  · exact (hshifts.stays_shut hl hopened).1
  · obtain ⟨pre, post, he⟩ := List.append_of_mem (Trace.mem_of.2 ⟨rfl, hm⟩)
    rw [he, Trace.unopened_append] at hopened
    refine hshifts.ceased ⟨pre, .connection 0, post, he, ?_⟩
    exact fun bound hb => hopened.2 bound (.tail _ hb)

/-- A stop that finds the listener stopped shows nothing, and the actions behind it are gone on with. -/
theorem advance_shut_passes (hk : a.kind = some .shut)
    (hdone : (advance front ⟨s, some g⟩).result = .ended .done)
    (h : g.isListening = false ∨ .serverClose ∈ (advance front ⟨s, some g⟩).events)
    (rest : List Action) : advance (front ++ a :: rest) ⟨s, some g⟩ =
      (advance rest (advance front ⟨s, some g⟩).stage).after
        ((advance front ⟨s, some g⟩).events ++ [.log (.executing a)]) := by
  obtain ⟨g', hg', hl⟩ := advance_not_listening h
  have hattempt := Action.attempt_shut_of_not_listening hk hg' hl
  rw [advance_append hdone, advance_go rest (by rw [hattempt]) (by rw [hk]; decide), hattempt]
  simp [Run.after]

/-- A stop that fails at the system ends its directive, and moves nothing. -/
theorem advance_shut_fails (hk : a.kind = some .shut)
    (hdone : (advance front ⟨s, some g⟩).result = .ended .done) {acceptor : Acceptor} {f : Fault}
    (ha : g.acceptor = some acceptor) (hs : acceptor.serving = true)
    (hf : acceptor.closeFault = some f) (he : f.isExternal = true) (rest : List Action) :
    (advance front ⟨s, some g⟩).stage.gate = some g
      ∧ advance (front ++ a :: rest) ⟨s, some g⟩ =
        ⟨(advance front ⟨s, some g⟩).stage,
          (advance front ⟨s, some g⟩).events
            ++ [.log (.executing a), .log (.actionError (.failed a.name f))],
          .ended (.aborted (.failed a.name f))⟩ := by
  obtain ⟨g', hg', hshifts⟩ := advance_shifts (fun _ => False) 0 front s g
  have hfixed : g' = g := by
    refine hshifts.unmoved ha hf ?_
    rintro ⟨o, e⟩ hm rfl
    cases (Trace.mem_of.1 hm).1
  rw [hfixed] at hg'
  have hattempt := Action.attempt_shut_of_fault hk hg' ha hs hf he
  refine ⟨hg', ?_⟩
  rw [advance_append hdone, advance_trouble rest (by rw [hattempt]), hattempt]
  rfl

end Directive

/-! ### Whole runs -/

namespace Listener

/-- A listener at which every stop fails: no call moves anything, and each is told of the fault. -/
structure Unstoppable (l : Listener) (f : Fault) : Prop where
  shutdown : l.step .shutdown = (l, { error := some f })
  accepts : l.isListening = true ∧ ∀ peer faults, (l.step (.connect peer faults)).2.ignored = false
  close : l.step .close = ({ l with closing := some (.failed f) }, {})
  shut : f.isExternal = true → ∀ (s : Session) (front : List Action) (a : Action) (rest : List Action),
    let r := Directive.advance front ⟨s, some l.gate⟩
    a.kind = some .shut → r.result = .ended .done → r.stage.gate = some l.gate
      ∧ Directive.advance (front ++ a :: rest) ⟨s, some l.gate⟩ =
        ⟨r.stage, r.events ++ [.log (.executing a), .log (.actionError (.failed a.name f))],
          .ended (.aborted (.failed a.name f))⟩

theorem Steady.unstoppable {l : Listener} (h : l.Steady) {acceptor : Acceptor} {f : Fault}
    (ha : l.gate.acceptor = some acceptor) (hs : acceptor.serving = true)
    (hf : acceptor.closeFault = some f) : l.Unstoppable f := by
  have hl : l.isListening = true := by simp [isListening, Gate.isListening, ha, hs]
  have hshut : l.shut = { state := l, error := some f } := by
    rw [Listener.shut, Gate.shut_of_fault ha hs hf]
  refine ⟨?_, ⟨hl, fun peer faults => ?_⟩, ?_, ?_⟩
  · rw [Listener.step, Listener.act, hshut]
    exact congrArg (·, _) h.noticed
  · rw [Listener.step, Listener.act, connect_of_listening hl]
  · have hclose : l.close = (l, [], some f) := by
      rw [Listener.close, hshut]
      rfl
    rw [Listener.step, Listener.act, hclose]
    refine congrArg (·, _) ?_
    calc notice { l with closing := some (.failed f) }
        = { l.notice with closing := some (.failed f) } := rfl
      _ = { l with closing := some (.failed f) } := by rw [h.noticed]
  · intro he s front a rest r hk hdone
    exact Directive.advance_shut_fails hk hdone ha hs hf he rest

/-- Stopping is done once. In every run what a start has opened is stopped at most once, each time with
its announcement right behind. From then until the next start succeeds connections are not accepted, and
an action that is to stop the listener shows nothing more than itself, even where the stop is the same
directive's, and those behind it are gone on with. A stop that fails moves nothing. -/
theorem stops_once (host : Option Text) (port : Option Int) (directive : Option Directive)
    (binding : Binding) (order : SetOrder) (steps : List Step) :
    let l := (Listener.new host port directive binding order).after steps
    let t := (Listener.new host port directive binding order).transcript steps
    t.StopsOnce
      ∧ (t.Ceased → l.isListening = false
          ∧ ∀ peer faults, l.step (.connect peer faults) = (l, { ignored := true }))
      ∧ (∀ (s : Session) (front : List Action) (a : Action) (rest : List Action),
          let r := Directive.advance front ⟨s, some l.gate⟩
          a.kind = some .shut → r.result = .ended .done → t.Ceased ∨ .serverClose ∈ r.events →
            Directive.advance (front ++ a :: rest) ⟨s, some l.gate⟩ =
              (Directive.advance rest r.stage).after (r.events ++ [.log (.executing a)]))
      ∧ ∀ acceptor f, l.gate.acceptor = some acceptor → acceptor.serving = true →
          acceptor.closeFault = some f → l.Unstoppable f := by
  intro l t
  have hsteady : l.Steady := (new_steady host port directive binding order).after steps
  have hshifts : Gate.Shifts (fun _ => True) {} t l.gate :=
    after_shifts (l := Listener.new host port directive binding order) fun _ _ => trivial
  refine ⟨hshifts.stopsOnce rfl, ?_, ?_, ?_⟩
  · intro hceased
    have hl : l.isListening = false := hshifts.ceased hceased
    refine ⟨hl, fun peer faults => ?_⟩
    rw [Listener.step, Listener.act, connect_of_not_listening hl]
    exact congrArg (·, _) hsteady.noticed
  · intro s front a rest r hk hdone hstopped
    exact Directive.advance_shut_passes hk hdone (hstopped.imp_left hshifts.ceased) rest
  · intro acceptor f ha hs hf
    exact hsteady.unstoppable ha hs hf

/-- A listener that is stopped for good, one that is stopped and stopped again by one directive, and one
at which every stop fails. -/
theorem stops_once_again :
    let new := Listener.new none (some 0) none .asked .ofAcceptance
    let stopped := new.after [.start, .connect none {}, .shutdown]
    let started := new.after [.start, .shutdown, .start]
    let f : Fault := { kind := .system, message := "busy".toList }
    let failing := new.after [.start, .setCloseFault (some f)]
    let s : Session := { peer := [] }
    let shut : Action := ⟨"SHUT".toList, none⟩
    let send : Action := ⟨"SEND".toList, some "a".toList⟩
    (new.transcript [.start, .connect none {}, .shutdown]).StopsOnce
      ∧ stopped.step (.connect none {}) = (stopped, { ignored := true })
      ∧ (Directive.advance [shut, shut, send] ⟨s, some started.gate⟩).events =
        [.log (.executing shut), .serverClose, .log .stoppedListening, .log (.executing shut),
          .log (.executing send), .write (.bytes [0x61])]
      ∧ failing.step .shutdown = (failing, { error := some f }) := by
  intro new stopped started f failing s shut send
  obtain ⟨honce, hceased, -⟩ :=
    stops_once none (some 0) none .asked .ofAcceptance [.start, .connect none {}, .shutdown]
  obtain ⟨-, -, hpasses, -⟩ :=
    stops_once none (some 0) none .asked .ofAcceptance [.start, .shutdown, .start]
  obtain ⟨-, -, -, hfails⟩ :=
    stops_once none (some 0) none .asked .ofAcceptance [.start, .setCloseFault (some f)]
  have hstop : (new.transcript [.start, .connect none {}, .shutdown]).Ceased :=
    ⟨new.transcript [.start, .connect none {}], .listener, [(.listener, .log .stoppedListening)],
      by decide, by simp [Trace.Unopened]⟩
  refine ⟨honce, (hceased hstop).2 none {}, ?_, ?_⟩
  · have hboth := hpasses s [shut] shut [send] rfl (by decide) (.inr (by decide))
    exact (congrArg Run.events hboth).trans (by decide)
  · exact (hfails { port := some Binding.freePort, closeFault := some f } f (by decide) rfl rfl).shutdown

end Listener
end ScriptedServer
