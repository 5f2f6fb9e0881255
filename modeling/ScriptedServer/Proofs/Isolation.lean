import ScriptedServer.Proofs.Run

/-!
Connections are isolated from each other. Two listeners agree but for connection `j` when they have
the same gate and the same of every other connection (`Agree`). A step that is addressed to `j` keeps
a listener in agreement with the one it came from, as long as `j` does not stop the listener; any
other step keeps two listeners in agreement and shows the same of every other connection. So
all that is to be seen of a connection is what is seen in the run without the steps addressed to `j`,
whatever these steps are, and two runs are compared through that third one.
-/

namespace ScriptedServer

namespace Listener

/-- No connection is set to fail when it is dropped. -/
def AbortFree (l : Listener) : Prop := ∀ c ∈ l.connections, c.session.faults.abort = none

instance (l : Listener) : Decidable l.AbortFree :=
  inferInstanceAs (Decidable (∀ c ∈ l.connections, c.session.faults.abort = none))

/-- Two listeners that agree in all but connection `j` and the waiters. -/
structure Agree (j : Nat) (l l' : Listener) : Prop where
  host : l.host = l'.host
  port : l.port = l'.port
  directive : l.directive = l'.directive
  binding : l.binding = l'.binding
  gate : l.gate = l'.gate
  length : l.connections.length = l'.connections.length
  connections : ∀ i, i ≠ j → l.connections[i]? = l'.connections[i]?
  sessions : l.sessions.filter (· ≠ j) = l'.sessions.filter (· ≠ j)
  order : l.order = l'.order

variable {j : Nat} {l l' l'' : Listener}

theorem Agree.refl (j : Nat) (l : Listener) : Agree j l l :=
  ⟨rfl, rfl, rfl, rfl, rfl, rfl, fun _ _ => rfl, rfl, rfl⟩

theorem Agree.symm (h : Agree j l l') : Agree j l' l :=
  ⟨h.host.symm, h.port.symm, h.directive.symm, h.binding.symm, h.gate.symm, h.length.symm,
    fun i hi => (h.connections i hi).symm, h.sessions.symm, h.order.symm⟩

theorem Agree.trans (h : Agree j l l') (h' : Agree j l' l'') : Agree j l l'' :=
  ⟨h.host.trans h'.host, h.port.trans h'.port, h.directive.trans h'.directive,
    h.binding.trans h'.binding, h.gate.trans h'.gate, h.length.trans h'.length,
    fun i hi => (h.connections i hi).trans (h'.connections i hi), h.sessions.trans h'.sessions,
    h.order.trans h'.order⟩

/-- The waiters of the one may differ from those of the other. -/
theorem Agree.withWaiters (h : Agree j l l') (serving closing serving' closing' : Option Waiter) :
    Agree j { l with serving, closing } { l' with serving := serving', closing := closing' } :=
  ⟨h.host, h.port, h.directive, h.binding, h.gate, h.length, h.connections, h.sessions,
    h.order⟩

/-- Where listeners agree, the same gate may be put in place. -/
theorem Agree.withGate (h : Agree j l l') (g : Gate) :
    Agree j { l with gate := g } { l' with gate := g } :=
  ⟨h.host, h.port, h.directive, h.binding, rfl, h.length, h.connections, h.sessions,
    h.order⟩

theorem Agree.mem_sessions (h : Agree j l l') {i : Nat} (hi : i ≠ j) :
    i ∈ l.sessions ↔ i ∈ l'.sessions := by
  have hf : i ∈ l.sessions.filter (· ≠ j) ↔ i ∈ l'.sessions.filter (· ≠ j) := by rw [h.sessions]
  simpa [hi] using hf

/-! ### Turns put in place -/

theorem filter_erase_self (xs : List Nat) (j : Nat) :
    (xs.erase j).filter (· ≠ j) = xs.filter (· ≠ j) := by
  rw [← List.erase_filter, List.erase_of_not_mem (by simp)]

/-- The same turn of another connection. -/
theorem Agree.put (h : Agree j l l') (n : Nat) (t : Turn) :
    Agree j (l.put n t) (l'.put n t) := by
  refine ⟨h.host, h.port, h.directive, h.binding, rfl, ?_, fun i hi => ?_, ?_, h.order⟩
  · rw [length_put, length_put, h.length]
  · by_cases hin : i = n
    · subst hin
      simp only [Listener.put, List.getElem?_set_self', h.connections i hi]
    · rw [get_put_of_ne hin, get_put_of_ne hin, h.connections i hi]
  · simp only [Listener.put]
    split
    · exact h.sessions
    · rw [← List.erase_filter, ← List.erase_filter, h.sessions]

/-- A turn of connection `j` that leaves the gate alone. -/
theorem Agree.putHidden (h : Agree j l l') {t : Turn} (hg : t.gate = l.gate) :
    Agree j (l.put j t) l' := by
  refine ⟨h.host, h.port, h.directive, h.binding, hg.trans h.gate, ?_, fun i hi => ?_, ?_,
    h.order⟩
  · rw [length_put, h.length]
  · rw [get_put_of_ne hi, h.connections i hi]
  · simp only [Listener.put]
    split
    · exact h.sessions
    · rw [filter_erase_self, h.sessions]

theorem AbortFree.put (h : AbortFree l) {t : Turn}
    (ht : t.connection.session.faults.abort = none) (n : Nat) : AbortFree (l.put n t) := by
  intro c hc
  rcases List.mem_or_eq_of_mem_set hc with hc | rfl
  · exact h c hc
  · exact ht

theorem AbortFree.putDrop {n : Nat} {c : Connection} (h : AbortFree l)
    (hc : l.connections[n]? = some c) (g : Gate) : AbortFree (l.put n (c.drop g)) :=
  h.put ((congrArg FaultPlan.abort (c.drop_faults g)).trans (h c (List.mem_of_getElem? hc))) n

/-! ### Dropping sessions -/

/-- Turns of two connections that leave the gate alike may be put in place in either order. -/
theorem put_comm {m n : Nat} (hmn : m ≠ n) {t u : Turn} (hg : t.gate = u.gate) :
    (l.put m t).put n u = (l.put n u).put m t := by
  simp only [Listener.put, hg, List.set_comm _ _ hmn]
  congr 1
  by_cases ht : t.connection.task = .running
  · simp only [if_pos ht]
  · by_cases hu : u.connection.task = .running
    · simp only [if_pos hu]
    · simp only [if_neg ht, if_neg hu, List.erase_comm]

/-- Two sessions may be dropped in either order: what differs is the order of what is seen of the two. -/
theorem dropSessions_swap (m n : Nat) (rest : List Nat) (ha : AbortFree l) :
    (dropSessions (n :: m :: rest) l).1 = (dropSessions (m :: n :: rest) l).1
      ∧ ∀ o, (dropSessions (n :: m :: rest) l).2.1.view o
          = (dropSessions (m :: n :: rest) l).2.1.view o := by
  by_cases hmn : m = n
  · rw [hmn]
    exact ⟨rfl, fun _ => rfl⟩
  · cases hb : l.connections[m]? with
    | none =>
      have hb' : ∀ t, (l.put n t).connections[m]? = none := fun t => (get_put_of_ne hmn l t).trans hb
      rw [dropSessions_of_none hb]
      cases hc : l.connections[n]? with
      | none =>
        rw [dropSessions_of_none hc, dropSessions_of_none hc, dropSessions_of_none hb]
        exact ⟨rfl, fun _ => rfl⟩
      | some c =>
        have hca := ha c (List.mem_of_getElem? hc)
        simp only [dropSessions_of_some hc hca, dropSessions_of_none (hb' _)]
        exact ⟨trivial, fun _ => trivial⟩
    | some b =>
      have hba := ha b (List.mem_of_getElem? hb)
      have hb' : ∀ t, (l.put n t).connections[m]? = some b := fun t =>
        (get_put_of_ne hmn l t).trans hb
      rw [dropSessions_of_some hb hba]
      cases hc : l.connections[n]? with
      | none =>
        have hc' : ∀ t, (l.put m t).connections[n]? = none := fun t =>
          (get_put_of_ne (Ne.symm hmn) l t).trans hc
        simp only [dropSessions_of_none hc, dropSessions_of_some hb hba, dropSessions_of_none (hc' _)]
        exact ⟨trivial, fun _ => trivial⟩
      | some c =>
        have hca := ha c (List.mem_of_getElem? hc)
        have hc' : ∀ t, (l.put m t).connections[n]? = some c := fun t =>
          (get_put_of_ne (Ne.symm hmn) l t).trans hc
        have hgate : ∀ n c, (l.put n (Connection.drop c l.gate)).gate = l.gate := fun _ _ => rfl
        have hput : (l.put n (c.drop l.gate)).put m (b.drop l.gate)
            = (l.put m (b.drop l.gate)).put n (c.drop l.gate) := put_comm (Ne.symm hmn) rfl
        simp only [dropSessions_of_some hc hca, dropSessions_of_some (hb' _) hba,
          dropSessions_of_some (hc' _) hca, hgate, hput, Trace.view_append, true_and]
        -- of the events in front of the rest none or those of one connection belong to `o`
        intro o
        by_cases ho : o = .connection n
        · have hm : Origin.connection m ≠ o := by rw [ho]; simpa using hmn
          simp only [Trace.view_of_ne hm, List.nil_append]
        · simp only [Trace.view_of_ne (Ne.symm ho), List.nil_append]

/-- The order in which sessions are dropped shows only in the order of what is seen of different ones. -/
theorem dropSessions_perm {xs ys : List Nat} (h : xs.Perm ys) (ha : AbortFree l) :
    (dropSessions xs l).1 = (dropSessions ys l).1
      ∧ ∀ o, (dropSessions xs l).2.1.view o = (dropSessions ys l).2.1.view o := by
  induction h generalizing l with
  | nil => exact ⟨rfl, fun _ => rfl⟩
  | @cons n _ _ _ ih =>
    cases hc : l.connections[n]? with
    | none =>
      rw [dropSessions_of_none hc, dropSessions_of_none hc]
      exact ih ha
    | some c =>
      obtain ⟨hs, hv⟩ := ih (ha.putDrop hc l.gate)
      have hca := ha c (List.mem_of_getElem? hc)
      rw [dropSessions_of_some hc hca, dropSessions_of_some hc hca]
      exact ⟨hs, fun o => by rw [Trace.view_append, Trace.view_append, hv o]⟩
  | swap m n rest => exact dropSessions_swap m n rest ha
  | trans _ _ ih ih' =>
    obtain ⟨hs, hv⟩ := ih ha
    obtain ⟨hs', hv'⟩ := ih' ha
    exact ⟨hs.trans hs', fun o => (hv o).trans (hv' o)⟩

/-- Whether connection `j` is dropped as well makes no difference to the others. -/
theorem dropSessions_agree (xs : List Nat) (h : Agree j l l') (ha : AbortFree l)
    (ha' : AbortFree l') :
    Agree j (dropSessions xs l).1 (dropSessions (xs.filter (· ≠ j)) l').1
      ∧ ∀ i, i ≠ j → (dropSessions xs l).2.1.view (.connection i)
          = (dropSessions (xs.filter (· ≠ j)) l').2.1.view (.connection i) := by
  induction xs generalizing l l' with
  | nil => exact ⟨h, fun _ _ => rfl⟩
  | cons n rest ih =>
    by_cases hn : n = j
    · rw [List.filter_cons_of_neg (by simpa using hn)]
      cases hc : l.connections[n]? with
      | none =>
        rw [dropSessions_of_none hc]
        exact ih h ha ha'
      | some c =>
        obtain ⟨hs, hv⟩ := ih (hn ▸ h.putHidden (t := c.drop l.gate) rfl) (ha.putDrop hc l.gate) ha'
        rw [dropSessions_of_some hc (ha c (List.mem_of_getElem? hc))]
        refine ⟨hs, fun i hi => ?_⟩
        have hni : Origin.connection n ≠ .connection i := by simpa [hn] using hi.symm
        rw [Trace.view_append, Trace.view_of_ne hni, List.nil_append, hv i hi]
    · rw [List.filter_cons_of_pos (by simpa using hn)]
      have hcn := h.connections n hn
      cases hc : l.connections[n]? with
      | none =>
        rw [dropSessions_of_none hc, dropSessions_of_none (hcn.symm.trans hc)]
        exact ih h ha ha'
      | some c =>
        have hc' : l'.connections[n]? = some c := hcn.symm.trans hc
        have hca := ha c (List.mem_of_getElem? hc)
        obtain ⟨hs, hv⟩ := ih (h.put n (c.drop l.gate)) (ha.putDrop hc l.gate)
          (ha'.putDrop hc' l.gate)
        rw [dropSessions_of_some hc hca, dropSessions_of_some hc' hca, ← h.gate]
        refine ⟨hs, fun i hi => ?_⟩
        rw [Trace.view_append, Trace.view_append, hv i hi]

/-! ### One step -/

theorem start_agree (h : Agree j l l') : Agree j l.start.state l'.start.state := by
  have hb : l.binding.bind l.port = l'.binding.bind l'.port := by rw [h.binding, h.port]
  rw [start, start, hb]
  cases l'.binding.bind l'.port with
  | error f =>
    exact ⟨h.host, h.port, h.directive, h.binding, congrArg Gate.renew h.gate, h.length,
      h.connections, h.sessions, h.order⟩
  | ok port =>
    exact ⟨h.host, rfl, h.directive, h.binding, by simp only [h.gate], h.length, h.connections,
      h.sessions, h.order⟩

theorem shut_agree (h : Agree j l l') : Agree j l.shut.state l'.shut.state := by
  rw [shut, shut, h.gate]
  exact h.withGate _

theorem serve_agree (h : Agree j l l') : Agree j l.serve.1 l'.serve.1 := by
  have hg : l.gate.acceptor.isSome = l'.gate.acceptor.isSome := by rw [h.gate]
  rw [serve, serve, hg]
  split
  · exact h.withWaiters _ _ _ _
  · exact (start_agree h).withWaiters _ _ _ _

theorem connect_agree (h : Agree j l l') (peer : Option (List Value)) (faults : FaultPlan) :
    Agree j (l.connect peer faults).1 (l'.connect peer faults).1
      ∧ (l.connect peer faults).2 = (l'.connect peer faults).2 := by
  have hl : l.isListening = l'.isListening := congrArg Gate.isListening h.gate
  cases hl' : l'.isListening with
  | false =>
    rw [connect_of_not_listening (hl.trans hl'), connect_of_not_listening hl']
    exact ⟨h, rfl⟩
  | true =>
    rw [connect_of_listening (hl.trans hl'), connect_of_listening hl']
    simp only [h.length, h.directive, h.gate]
    refine ⟨⟨h.host, h.port, rfl, h.binding, rfl, ?_, fun i hi => ?_, ?_, h.order⟩, trivial⟩
    · simp only [List.length_append, h.length]
    · rw [List.getElem?_append, List.getElem?_append, h.length, h.connections i hi]
    · split
      · rw [List.filter_append, List.filter_append, h.sessions]
      · rw [← List.erase_filter, ← List.erase_filter, List.filter_append, List.filter_append,
          h.sessions]

theorem close_agree (h : Agree j l l') (ha : AbortFree l) (ha' : AbortFree l') :
    Agree j l.close.1 l'.close.1
      ∧ ∀ i, i ≠ j → l.close.2.1.view (.connection i) = l'.close.2.1.view (.connection i) := by
  have hs := shut_agree h
  have he : l.shut.error = l'.shut.error := by rw [shut, shut, h.gate]
  rw [close, close, he]
  cases l'.shut.error with
  | some f => exact ⟨hs, fun i _ => by rw [Trace.view_listener, Trace.view_listener]⟩
  | none =>
    -- both sides are compared with dropping all but connection `j` from the second listener, and
    -- the set of the one may well give these in another order than the set of the other
    obtain ⟨h₁, v₁⟩ := dropSessions_agree l.openSessions hs ha ha'
    obtain ⟨h₂, v₂⟩ := dropSessions_agree l'.openSessions (Agree.refl j l'.shut.state) ha' ha'
    have hperm : (l.openSessions.filter (· ≠ j)).Perm (l'.openSessions.filter (· ≠ j)) := by
      refine (l.openSessions_perm.filter _).trans ?_
      rw [h.sessions]
      exact (l'.openSessions_perm.filter _).symm
    obtain ⟨hsame, v₀⟩ := dropSessions_perm hperm (l := l'.shut.state) ha'
    rw [hsame] at h₁
    refine ⟨h₁.trans h₂.symm, fun i hi => ?_⟩
    rw [Trace.view_append, Trace.view_append, Trace.view_listener, Trace.view_listener, v₁ i hi,
      v₂ i hi, v₀]

/-- A step that is not addressed to connection `j` does the same to all other connections. -/
theorem step_agree {s : Step} (ht : s.target ≠ some j) (h : Agree j l l') (ha : AbortFree l)
    (ha' : AbortFree l') :
    Agree j (l.step s).1 (l'.step s).1
      ∧ ∀ i, i ≠ j →
          (l.step s).2.trace.view (.connection i) = (l'.step s).2.trace.view (.connection i) := by
  suffices hact : Agree j (l.act s).1 (l'.act s).1 ∧ ∀ i, i ≠ j →
      (l.act s).2.trace.view (.connection i) = (l'.act s).2.trace.view (.connection i) from
    ⟨hact.1.withWaiters _ _ _ _, hact.2⟩
  cases hs : s.target with
  | some n =>
    have hn : n ≠ j := fun hnj => ht (hnj ▸ hs)
    rw [act_of_target hs, act_of_target hs, onConnection, onConnection, h.directive, h.gate,
      h.connections n hn]
    cases l'.connections[n]?.bind (s.reaction l'.directive l'.gate) with
    | none => exact ⟨h, fun _ _ => rfl⟩
    | some t => exact ⟨h.put n t, fun _ _ => rfl⟩
  | none =>
    cases s with
    | start =>
      refine ⟨start_agree h, fun i _ => ?_⟩
      exact (Trace.view_listener _ i).trans (Trace.view_listener _ i).symm
    | shutdown =>
      refine ⟨shut_agree h, fun i _ => ?_⟩
      exact (Trace.view_listener _ i).trans (Trace.view_listener _ i).symm
    | serve =>
      refine ⟨serve_agree h, fun i _ => ?_⟩
      simp only [act, serve, h.gate]
      split
      · rfl
      · rw [Trace.view_listener, Trace.view_listener]
    | close =>
      obtain ⟨hc, hv⟩ := close_agree h ha ha'
      exact ⟨hc.withWaiters _ _ _ _, hv⟩
    | connect peer faults =>
      obtain ⟨hc, ho⟩ := connect_agree h peer faults
      exact ⟨hc, fun i _ => by simp only [act, ho]⟩
    | setCloseFault f =>
      refine ⟨?_, fun _ _ => rfl⟩
      simp only [act, h.gate]
      exact h.withGate _
    | receive | endInbound | reset | wake | setFault => cases hs

/-- A step that is addressed to connection `j` does nothing to all other connections, as long as `j`
does not stop the listener. -/
theorem step_agree_hidden {s : Step} (ht : s.target = some j) (h : Agree j l l')
    (hs : (.connection j, .serverClose) ∉ (l.step s).2.trace) : Agree j (l.step s).1 l' := by
  suffices hact : Agree j (l.act s).1 l' from
    hact.withWaiters _ _ l'.serving l'.closing
  rw [step, act_of_target ht] at hs
  rw [act_of_target ht]
  cases hb : l.connections[j]?.bind (s.reaction l.directive l.gate) with
  | none => rwa [onConnection_of_none hb]
  | some t =>
    obtain ⟨c, hc, hr⟩ := Option.bind_eq_some_iff.1 hb
    rw [onConnection_of_some hc hr] at hs ⊢
    exact h.putHidden (Step.reaction_gate hr fun hm => hs (Trace.mem_of.2 ⟨rfl, hm⟩))

/-! ### Faults for dropping a connection -/

theorem AbortFree.dropSessions (xs : List Nat) (h : AbortFree l) :
    AbortFree (dropSessions xs l).1 := by
  induction xs generalizing l with
  | nil => exact h
  | cons n rest ih =>
    cases hc : l.connections[n]? with
    | none => rw [dropSessions_of_none hc]; exact ih h
    | some c =>
      rw [dropSessions_of_some hc (h c (List.mem_of_getElem? hc))]
      exact ih (h.putDrop hc l.gate)

/-- If the one of two listeners that agree is not given a fault for dropping a connection, then
neither is the other: the step would set it on both sides. -/
theorem AbortFree.step {s : Step} (ht : s.target ≠ some j) (h : Agree j l l')
    (ha' : AbortFree l') (hs : AbortFree (l.step s).1) : AbortFree (l'.step s).1 := by
  suffices hact : AbortFree (l'.act s).1 from hact
  replace hs : AbortFree (l.act s).1 := hs
  cases htn : s.target with
  | some n =>
    have hn : n ≠ j := fun hnj => ht (hnj ▸ htn)
    rw [act_of_target htn] at hs ⊢
    cases hb : l'.connections[n]?.bind (s.reaction l'.directive l'.gate) with
    | none => rwa [onConnection_of_none hb]
    | some t =>
      obtain ⟨c, hc, hr⟩ := Option.bind_eq_some_iff.1 hb
      have hcl := (h.connections n hn).trans hc
      rw [onConnection_of_some hcl (by rw [h.directive, h.gate, hr])] at hs
      rw [onConnection_of_some hc hr]
      obtain ⟨hlt, -⟩ := List.getElem?_eq_some_iff.1 hcl
      exact ha'.put (hs _ (List.mem_set hlt _)) n
  | none =>
    cases s with
    | start => intro c hc; exact ha' c (l'.start_connections ▸ hc)
    | shutdown => exact ha'
    | serve => intro c hc; exact ha' c (l'.serve_connections ▸ hc)
    | close =>
      simp only [act, close]
      cases l'.shut.error with
      | some f => exact ha'
      | none => exact AbortFree.dropSessions l'.openSessions (l := l'.shut.state) ha'
    | connect peer faults =>
      simp only [act] at hs ⊢
      cases hl : l'.isListening with
      | false => rwa [connect_of_not_listening hl]
      | true =>
        have hll : l.isListening = true := (congrArg Gate.isListening h.gate).trans hl
        rw [connect_of_listening hll] at hs
        rw [connect_of_listening hl]
        intro c hc
        rcases List.mem_append.1 hc with hc | hc
        · exact ha' c hc
        · have hnew := hs _ (List.mem_append_right _ (List.mem_singleton_self _))
          rw [(Connection.accept_keeps _ _ _ _).faults] at hnew
          rw [List.mem_singleton.1 hc, (Connection.accept_keeps _ _ _ _).faults]
          exact hnew
    | setCloseFault f => exact ha'
    | receive | endInbound | reset | wake | setFault => cases htn

/-! ### Whole runs -/

/-- What is to be seen of connection `i` at a step: its events, and behind the step the connection
itself, whether its session is open, and the gate. -/
structure Sight where
  events : List Event
  connection : Option Connection
  isOpen : Bool
  gate : Gate

/-- What is to be seen of connection `i` at a step with a given result. -/
def sight (i : Nat) (r : Listener × Outcome) : Sight where
  events := r.2.trace.view (.connection i)
  connection := r.1.connections[i]?
  isOpen := decide (i ∈ r.1.sessions)
  gate := r.1.gate

/-- What is to be seen of connection `i` at each of the steps that are not addressed to `j`. -/
def sights (j i : Nat) (l : Listener) : List Step → List Sight
  | [] => []
  | s :: rest =>
    if s.target = some j then sights j i (l.step s).1 rest
    else sight i (l.step s) :: sights j i (l.step s).1 rest

/-- What is to be seen of a connection is what is seen in the run without the steps addressed to
another one, and so is all that it shows. -/
theorem sights_eq_without (xs : List Step) (h : Agree j l l') (ha : AbortFree l)
    (ha' : AbortFree l') (hs : ∀ r ∈ l.run xs, AbortFree r.1)
    (hx : (.connection j, .serverClose) ∉ l.transcript xs) {i : Nat} (hi : i ≠ j) :
    l.sights j i xs = l'.sights j i (xs.filter (·.target ≠ some j))
      ∧ (l.transcript xs).view (.connection i)
          = (l'.transcript (xs.filter (·.target ≠ some j))).view (.connection i) := by
  induction xs generalizing l l' with
  | nil => exact ⟨rfl, rfl⟩
  | cons s rest ih =>
    have hsa : AbortFree (l.step s).1 := hs _ List.mem_cons_self
    have hrest : ∀ r ∈ (l.step s).1.run rest, AbortFree r.1 :=
      fun r hr => hs r (List.mem_cons_of_mem _ hr)
    rw [transcript_cons, List.mem_append, not_or] at hx
    by_cases ht : s.target = some j
    · obtain ⟨hr, hv⟩ := ih (step_agree_hidden ht h hx.1) hsa ha' hrest hx.2
      rw [List.filter_cons_of_neg (by simpa using ht), sights, if_pos ht, transcript_cons,
        Trace.view_append, view_of_target ht hi]
      exact ⟨hr, hv⟩
    · obtain ⟨hag, hown⟩ := step_agree ht h ha ha'
      obtain ⟨hr, hv⟩ := ih hag hsa (ha'.step ht h hsa) hrest hx.2
      have hsight : sight i (l.step s) = sight i (l'.step s) := by
        simp only [sight, hown i hi, hag.connections i hi, hag.gate, hag.mem_sessions hi]
      rw [List.filter_cons_of_pos (by simpa using ht), sights, sights, if_neg ht, if_neg ht,
        transcript_cons, transcript_cons, Trace.view_append, Trace.view_append, hsight, hr,
        hown i hi, hv]
      exact ⟨rfl, rfl⟩

/-- Two runs whose steps are the same but for those addressed to connection `j`, and in which `j`
does not stop the listener, are the same to every other connection: at each common step it shows the
same and stands the same, its session is open or not, the gate is the same, and so is all that it
ever shows. -/
theorem isolated {xs ys : List Step} (ha : AbortFree l)
    (common : xs.filter (·.target ≠ some j) = ys.filter (·.target ≠ some j))
    (hxs : ∀ r ∈ l.run xs, AbortFree r.1) (hys : ∀ r ∈ l.run ys, AbortFree r.1)
    (hx : (.connection j, .serverClose) ∉ l.transcript xs)
    (hy : (.connection j, .serverClose) ∉ l.transcript ys) {i : Nat} (hi : i ≠ j) :
    l.sights j i xs = l.sights j i ys
      ∧ (l.transcript xs).view (.connection i) = (l.transcript ys).view (.connection i) := by
  obtain ⟨hsx, hvx⟩ := sights_eq_without xs (Agree.refl j l) ha ha hxs hx hi
  obtain ⟨hsy, hvy⟩ := sights_eq_without ys (Agree.refl j l) ha ha hys hy hi
  rw [hsx, hsy, hvx, hvy, common]
  exact ⟨rfl, rfl⟩

/-- Two connections, of which the second sends, sleeps and sends again until all are dropped. -/
def calmRun : List Step :=
  [.start, .connect none {}, .connect none {},
    .receive 1 (Utf8.encode "ACT[SEND=a,WAIT=5,SEND=b]".toList) false, .endInbound 0, .wake 1, .close]

/-- The same two, but the first sends a bad directive, meets a fault and is reset by a bug. -/
def roughRun : List Step :=
  [.start, .connect none {}, .setFault 0 .drain (some .writeAfterClose), .connect none {},
    .receive 0 (Utf8.encode "ACT[SEND=x,SHUT]".toList) false,
    .receive 1 (Utf8.encode "ACT[SEND=a,WAIT=5,SEND=b]".toList) false,
    .reset 0 { kind := .internal, message := [] }, .wake 1, .close]

theorem isolated_calm_rough :
    let l : Listener := { host := none, port := some 0 }
    l.AbortFree ∧ calmRun.filter (·.target ≠ some 0) = roughRun.filter (·.target ≠ some 0)
      ∧ (∀ r ∈ l.run calmRun, AbortFree r.1) ∧ (∀ r ∈ l.run roughRun, AbortFree r.1)
      ∧ (.connection 0, .serverClose) ∉ l.transcript calmRun
      ∧ (.connection 0, .serverClose) ∉ l.transcript roughRun
      ∧ l.sights 0 1 calmRun = l.sights 0 1 roughRun
      ∧ (l.transcript calmRun).view (.connection 1)
          = (l.transcript roughRun).view (.connection 1) := by
  intro l
  have ha : l.AbortFree := by decide
  have common : calmRun.filter (·.target ≠ some 0) = roughRun.filter (·.target ≠ some 0) := rfl
  have hc : ∀ r ∈ l.run calmRun, AbortFree r.1 := by decide
  have hr : ∀ r ∈ l.run roughRun, AbortFree r.1 := by decide
  have hcs : (.connection 0, .serverClose) ∉ l.transcript calmRun := by decide
  have hrs : (.connection 0, .serverClose) ∉ l.transcript roughRun := by decide
  exact ⟨ha, common, hc, hr, hcs, hrs, isolated ha common hc hr hcs hrs (by decide)⟩

end Listener
end ScriptedServer
