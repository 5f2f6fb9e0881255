import ScriptedServer.Proofs.Chronicle
import ScriptedServer.Proofs.Dismissal

/-!
What is logged of a connection, from its first line to its last. All that is seen of it stands between the
line that it is connected and the line that it is closed, and the second is there exactly when its
handling is over (`Connection.Framed`): every stride keeps it so, as long as hanging up does not fail and
resets come with faults of input and output. Nothing at all is seen of a connection whose peer could not
be labelled.
-/

namespace ScriptedServer

/-- Whether an event is the first line of a connection or the last. -/
def Event.frames : Event → Bool
  | .log (.connected _) | .log (.closed _) => true
  | _ => false

/-- Whether an event reports that reading has failed. -/
def Event.failsToRead : Event → Bool
  | .log (.readFailed _ _) => true
  | _ => false

theorem aside_of_ofDirective {e : Event} (h : e.ofDirective = true) :
    e.frames = false ∧ e.failsToRead = false := by
  cases e with
  | log line =>
    cases line with
    | connected | closed | readFailed => cases h
    | _ => exact ⟨rfl, rfl⟩
  | _ => exact ⟨rfl, rfl⟩

namespace Connection

/-- The last line of a connection, once its handling is over. -/
def ending (c : Connection) : List Event :=
  if c.task = .running then [] else [.log (.closed c.session.peer)]

/-- A connection of which what is seen stands between its first line and its last. -/
structure Framed (c : Connection) (events : List Event) : Prop where
  unhindered : c.session.faults.close = none
  awake : c.task ≠ .running → c.job.isAsleep = false
  /-- Reading fails only where it ends. -/
  framed : ∃ inner, events = .log (.connected c.session.peer) :: (inner ++ c.ending)
    ∧ (∀ e ∈ inner, e.frames = false)
    ∧ inner.countP Event.failsToRead ≤ if c.inboundOpen then 0 else 1

/-- A connection that nobody handles, and of which nothing is seen. -/
structure Unannounced (c : Connection) (events : List Event) : Prop where
  task : c.task = .failed .missingPart
  job : c.job = .none
  unseen : events = []

variable {s : Step} {c c' : Connection} {events more : List Event} {marks : List Mark}
  {hist : List (Step × Mark)}

theorem ending_running (h : c.task = .running) : c.ending = [] := if_pos h

theorem ending_over (h : c.task ≠ .running) : c.ending = [.log (.closed c.session.peer)] := if_neg h

/-- What changes neither the handling nor the directive, and shows nothing. -/
theorem Framed.still (h : c.Framed events) (hp : c'.session.peer = c.session.peer)
    (hf : c'.session.faults.close = none) (ht : c'.task = c.task) (hj : c'.job = c.job)
    (hi : c'.inboundOpen = true → c.inboundOpen = true) : c'.Framed events where
  unhindered := hf
  awake := by
    rw [ht, hj]
    exact h.awake
  framed := by
    obtain ⟨inner, hevents, hinner, hcount⟩ := h.framed
    refine ⟨inner, by rw [hevents, ending, ending, ht, hp], hinner, ?_⟩
    cases hi' : c'.inboundOpen with
    | true =>
      rw [hi hi'] at hcount
      exact hcount
    | false => exact Nat.le_trans hcount (by split <;> simp)

/-- More is seen of a connection that is handled, and the last line behind it if that ends. -/
theorem Framed.go (h : c.Framed events) (hr : c.task = .running) (more : List Event)
    (hp : c'.session.peer = c.session.peer) (hf : c'.session.faults.close = none)
    (ha : c'.task ≠ .running → c'.job.isAsleep = false) (hmore : ∀ e ∈ more, e.frames = false)
    (hcount : more.countP Event.failsToRead + (if c.inboundOpen then 0 else 1)
      ≤ if c'.inboundOpen then 0 else 1) : c'.Framed (events ++ (more ++ c'.ending)) where
  unhindered := hf
  awake := ha
  framed := by
    obtain ⟨inner, hevents, hinner, hfailed⟩ := h.framed
    rw [ending_running hr, List.append_nil] at hevents
    refine ⟨inner ++ more, ?_, List.forall_mem_append.2 ⟨hinner, hmore⟩, ?_⟩
    · rw [hevents, hp, List.cons_append, List.append_assoc]
    · rw [List.countP_append]
      omega

/-- More is seen of a connection that goes on being handled. -/
theorem Framed.goesOn (h : c.Framed events) (hr : c.task = .running) (hr' : c'.task = .running)
    (hp : c'.session.peer = c.session.peer) (hf : c'.session.faults.close = none)
    (hmore : ∀ e ∈ more, e.frames = false)
    (hcount : more.countP Event.failsToRead + (if c.inboundOpen then 0 else 1)
      ≤ if c'.inboundOpen then 0 else 1) : c'.Framed (events ++ more) := by
  have hgo := h.go hr more hp hf (fun hn => absurd hr' hn) hmore hcount
  rwa [ending_running hr', List.append_nil] at hgo

/-- A stretch of the directive frames nothing and reads nothing. -/
theorem Framed.work (h : c.Framed events) (hr : c.task = .running) {g : Gate} {acts : List Action}
    {stretch : Stage → Run Progress} (hs : Directive.Stretch acts stretch)
    (hp : (c.work g stretch).connection.session.peer = c.session.peer)
    (hf : (c.work g stretch).connection.session.faults.close = none) :
    (c.work g stretch).connection.Framed (events ++ (c.work g stretch).events) := by
  have hd : ∀ e ∈ (c.work g stretch).events, e.frames = false ∧ e.failsToRead = false :=
    fun e he => aside_of_ofDirective (hs.ofDirective _ e he)
  have hzero : (c.work g stretch).events.countP Event.failsToRead = 0 :=
    List.countP_eq_zero.2 fun e he => by simp [(hd e he).2]
  refine h.goesOn hr hr hp hf (fun e he => (hd e he).1) ?_
  rw [hzero, Nat.zero_add]
  exact Nat.le_refl _

theorem Stride.peer (h : Stride s c marks c') : c'.session.peer = c.session.peer := by
  cases h with
  | begin g d => exact (c.begin_passes g d).session.peer
  | resume g => exact (c.advance_passes g _).session.peer
  | _ => rfl

theorem Stride.unhindered (h : Stride s c marks c') (hs : s.isOrderly = true)
    (hc : c.session.faults.close = none) : c'.session.faults.close = none := by
  cases h with
  | begin g d => rw [(c.begin_keeps g d).faults]; exact hc
  | resume g => rw [(c.advance_keeps g _).faults]; exact hc
  | @setFault n point f he =>
    subst he
    cases point with
    | close => simpa [Step.isOrderly, FaultPlan.set] using hs
    | _ => exact hc
  | _ => exact hc

/-- Every orderly stride keeps what is seen framed. -/
theorem Framed.stride (hF : c.Framed (shown hist)) (hs : s.isOrderly = true)
    (h : Stride s c marks c') : c'.Framed (shown (hist ++ marks.map (s, ·))) := by
  have hp := h.peer
  have hf := h.unhindered hs hF.unhindered
  have hnil : shown hist = shown hist ++ [] := (List.append_nil _).symm
  rw [shown_append]
  cases h with
  | setFault | take =>
    rw [hnil] at hF
    exact hF.still hp hf rfl rfl id
  | eof | loseOver | tear =>
    rw [hnil] at hF
    exact hF.still hp hf rfl rfl nofun
  | hear piece hr | refuse hr | drop _ hr =>
    exact hF.goesOn hr hr hp hf (by simp [shown, Mark.seen?, Event.frames, receivedLine])
      (by simp [shown, Mark.seen?, Event.failsToRead, receivedLine])
  | lose he hi hr =>
    exact hF.goesOn hr hr hp hf (by simp [shown, Mark.seen?, Event.frames])
      (by simp [shown, Mark.seen?, Event.failsToRead, hi])
  | begin g d hr =>
    rw [shown_all]
    exact hF.work hr .begin hp hf
  | resume g hj =>
    have hr : c.task = .running := by
      by_contra hn
      have hawake := hF.awake hn
      rw [hj] at hawake
      cases hawake
    rw [shown_all]
    exact hF.work hr .advance hp hf
  | refuseFailed _ _ _ hc | refuseBroken _ _ _ hc | unreleased _ _ _ hc =>
    rw [hF.unhindered] at hc
    cases hc
  | loseBroken he _ _ hext =>
    subst he
    rw [Step.isOrderly, hext] at hs
    cases hs
  | release hr hj =>
    have hgo := hF.go hr [.waitClosed] hp hf (fun _ => hj) (by simp [Event.frames])
      (by simp [Event.failsToRead])
    rwa [ending_over c.outcome_ne_running] at hgo
  | hangUp hr hj =>
    have hgo := hF.go hr [.close, .waitClosed] hp hf (fun _ => hj) (by simp [Event.frames])
      (by simp [Event.failsToRead])
    rwa [ending_over c.outcome_ne_running] at hgo

/-- Of a connection that nobody handles nothing comes to be seen. -/
theorem Unannounced.stride (hU : c.Unannounced (shown hist)) (h : Stride s c marks c') :
    c'.Unannounced (shown (hist ++ marks.map (s, ·))) := by
  have hover : c.task ≠ .running := by rw [hU.task]; nofun
  have hunseen : shown hist ++ [] = [] := by rw [hU.unseen]; rfl
  rw [shown_append]
  cases h with
  | setFault | take | eof | loseOver | tear => exact ⟨hU.task, hU.job, hunseen⟩
  | resume g hj =>
    rw [hU.job] at hj
    cases hj
  | hear _ hr | begin _ _ hr | refuse hr | refuseFailed hr | refuseBroken hr | lose _ _ hr
  | loseBroken _ _ hr | release hr | hangUp hr | unreleased hr | drop _ hr => exact absurd hr hover

end Connection

/-- Orderly steps keep what is seen framed, for each connection that has a label. -/
theorem StrideInvariant.framed : StrideInvariant (·.isOrderly = true) fun c hist =>
    (c.IsLabelled ∧ c.Framed (shown hist)) ∨ (c.session.peer = [] ∧ c.Unannounced (shown hist)) where
  welcomed faults hs hconnect hlabel := by
    obtain ⟨peer, rfl⟩ := hconnect
    refine .inl ⟨(Connection.peerLabel_eq_ok hlabel).1, ?_, fun hn => absurd rfl hn, [], rfl, by simp, ?_⟩
    · simpa [Step.isOrderly] using hs
    · exact Nat.le_refl 0
  unlabelled faults hs hconnect hlabel := by
    obtain ⟨rfl, -⟩ := Connection.peerLabel_eq_error hlabel
    exact .inr ⟨rfl, rfl, rfl, rfl⟩
  stride hs h := by
    rintro (⟨hl, hF⟩ | ⟨hp, hU⟩)
    · exact .inl ⟨by rwa [Connection.IsLabelled, h.peer], hF.stride hs h⟩
    · exact .inr ⟨h.peer.trans hp, hU.stride h⟩

/-- A connection is accepted with the label of its peer, if there is one. -/
theorem Connection.accept_label {address : List Value} {label : Text}
    (h : peerLabel address = .ok label) (faults : FaultPlan) (directive : Option Directive) (g : Gate) :
    (accept address faults directive g).connection.session.peer = label := by
  rw [accept, h]
  exact (welcome_passes _ directive g).session.peer

theorem Connection.accept_unlabelled {address : List Value} {f : Fault}
    (h : peerLabel address = .error f) (faults : FaultPlan) (directive : Option Directive) (g : Gate) :
    ¬ (accept address faults directive g).connection.IsLabelled := by
  rw [accept, h]
  exact fun hl => hl rfl

namespace Listener

/-- Of each connection that is accepted in a run of orderly steps all that is seen stands between the line
that it is connected, which is the first, and the line that it is closed, which is the last and is there
exactly when its handling is over and its session with it; reading fails at most once. Of a connection
whose peer has an address of a single part nothing is seen at all. -/
theorem log_framed {before after : List Step} {peer : Option (List Value)} {faults : FaultPlan}
    (hs : ∀ s ∈ before ++ .connect peer faults :: after, s.isOrderly = true)
    {host : Option Text} {port : Option Int} {directive : Option Directive} {binding : Binding}
    {order : SetOrder}
    (hl : ((new host port directive binding order).after before).isListening = true) :
    let n := ((new host port directive binding order).after before).connections.length
    let steps := before ++ .connect peer faults :: after
    let l := (new host port directive binding order).after steps
    let seen := ((new host port directive binding order).transcript steps).view (.connection n)
    ∃ c, l.connections[n]? = some c
      ∧ (c.task = .running ↔ n ∈ l.sessions)
      ∧ ((∀ part, peer ≠ some [part]) → ∃ label inner, peerLabel (peer.getD (standInPeer n)) = .ok label
          ∧ seen = .log (.connected label)
              :: (inner ++ if c.task = .running then [] else [.log (.closed label)])
          ∧ (∀ e ∈ inner, e.frames = false) ∧ inner.countP Event.failsToRead ≤ 1)
      ∧ ((∃ part, peer = some [part]) → seen = [] ∧ c.task = .failed .missingPart) := by
  intro n steps l seen
  have hnew := new_steady host port directive binding order
  have hsteady : l.Steady := hnew.after steps
  obtain ⟨c, hc, hpeer⟩ := connect_peer (hnew.after before) hl peer faults after
  obtain ⟨c', hc', hlabelled⟩ := connect_isLabelled (hnew.after before) hl peer faults after
  obtain rfl := Option.some.inj (hc.symm.trans hc')
  rw [← after_append] at hc
  have hframed : (c.IsLabelled ∧ c.Framed seen) ∨ (c.session.peer = [] ∧ c.Unannounced seen) := by
    have hP := StrideInvariant.framed.holds hs hc
    rwa [shown_chronicle] at hP
  refine ⟨c, hc, hsteady.running_iff hc, fun hparts => ?_, fun ⟨part, hpart⟩ => ?_⟩
  · obtain ⟨hlabel, hF⟩ := hframed.resolve_right fun h => hlabelled.2 hparts h.1
    obtain ⟨inner, hseen, hinner, hcount⟩ := hF.framed
    cases hp : peerLabel (peer.getD (standInPeer n)) with
    | error f =>
      rw [Connection.IsLabelled, hpeer] at hlabel
      exact absurd hlabel (Connection.accept_unlabelled hp faults _ _)
    | ok label =>
      rw [Connection.accept_label hp] at hpeer
      rw [Connection.ending, hpeer] at hseen
      exact ⟨label, inner, rfl, hseen, hinner, Nat.le_trans hcount (by split <;> decide)⟩
  · obtain ⟨-, hU⟩ := hframed.resolve_left fun h => hlabelled.1 h.1 part hpart
    exact ⟨hU.unseen, hU.task⟩

/-- A connection is reset while its directive sleeps, and closed when that is over. -/
theorem log_framed_sleeper :
    let steps : List Step := [.start] ++ .connect none {} :: (sleeperSteps ++ [.wake 0])
    let l := (new none (some 0) none .asked .ofAcceptance).after steps
    let seen := ((new none (some 0) none .asked .ofAcceptance).transcript steps).view (.connection 0)
    (∀ s ∈ steps, s.isOrderly = true)
      ∧ ((new none (some 0) none .asked .ofAcceptance).after [.start]).isListening = true
      ∧ 0 ∉ l.sessions ∧ ∃ label inner,
        seen = .log (.connected label) :: (inner ++ [.log (.closed label)])
          ∧ inner.countP Event.failsToRead ≤ 1 := by
  intro steps l seen
  have hs : ∀ s ∈ steps, s.isOrderly = true := by decide
  have hl : ((new none (some 0) none .asked .ofAcceptance).after [.start]).isListening = true := by decide
  have hleft : 0 ∉ l.sessions := by decide
  obtain ⟨c, -, hsession, hframed, -⟩ := log_framed hs hl
  obtain ⟨label, inner, -, hseen, -, hcount⟩ := hframed (by simp)
  rw [if_neg fun ht => hleft (hsession.1 ht)] at hseen
  exact ⟨hs, hl, hleft, label, inner, hseen, hcount⟩

/-- A connection from an address of a single part is over, and neither its first line is seen nor its
last. -/
theorem unlabelled_never_framed :
    let steps : List Step := [.start, .connect (some [.text "/run/sock".toList]) {}]
    (∀ s ∈ steps, s.isOrderly = true)
      ∧ (∃ c, ((new none (some 0) none .asked .ofAcceptance).after steps).connections[0]? = some c
          ∧ c.task ≠ .running)
      ∧ ((new none (some 0) none .asked .ofAcceptance).transcript steps).view (.connection 0) = [] :=
  ⟨by decide, ⟨_, rfl, by decide⟩, by decide⟩

end Listener
end ScriptedServer
