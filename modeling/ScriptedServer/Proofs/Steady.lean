import ScriptedServer.Proofs.History

/-!
What a listener is like between two steps. Its connections are at rest, its open sessions are exactly
the connections whose handling goes on, each listed once, and its waiters have nothing more to take
notice of: such a listener is `Steady`. A listener is made so, and every step leaves it so; the list of
sessions is dealt with where a turn is put in place (`Settled.put`) and where a connection is accepted.
-/

namespace ScriptedServer
namespace Listener

/-- A listener with nothing left to do on any connection, and its sessions in order. -/
structure Settled (l : Listener) : Prop where
  atRest : ∀ c ∈ l.connections, c.AtRest
  nodup : l.sessions.Nodup
  mem_sessions : ∀ n, n ∈ l.sessions ↔ ∃ c, l.connections[n]? = some c ∧ c.task = .running

/-- A listener between two steps. -/
structure Steady (l : Listener) : Prop extends Settled l where
  noticed : l.notice = l

variable {l l' : Listener} {n : Nat} {c : Connection} {t : Turn}

/-! ### Taking notice -/

/-- A waiter that has taken notice does not go on by itself. -/
theorem settle_settle (g : Gate) (idle : Bool) (w : Waiter) :
    Waiter.settle g idle (Waiter.settle g idle w) = Waiter.settle g idle w := by
  cases w with
  | awaiting start =>
    by_cases hs : start = g.starts ∧ g.stopped
    · cases idle <;> simp [Waiter.settle, hs]
    · simp [Waiter.settle, hs]
  | draining => cases idle <;> rfl
  | done | failed => rfl

theorem notice_notice (l : Listener) : l.notice.notice = l.notice := by
  have hw : ∀ w : Option Waiter, (w.map (Waiter.settle l.gate l.isIdle)).map
      (Waiter.settle l.gate l.isIdle) = w.map (Waiter.settle l.gate l.isIdle) := by
    intro w
    cases w with
    | none => rfl
    | some w => exact congrArg some (settle_settle l.gate l.isIdle w)
  have hi : l.notice.isIdle = l.isIdle := rfl
  rw [notice, hi]
  simp only [notice, hw]

/-! ### Sessions in order -/

/-- Only the connections and the sessions matter. -/
theorem Settled.of_same (h : l.Settled) (hc : l'.connections = l.connections)
    (hs : l'.sessions = l.sessions) : l'.Settled :=
  ⟨by rw [hc]; exact h.atRest, by rw [hs]; exact h.nodup, by rw [hc, hs]; exact h.mem_sessions⟩

theorem Settled.openSessions_nodup (h : l.Settled) : l.openSessions.Nodup :=
  l.openSessions_perm.nodup_iff.2 h.nodup

/-- A turn of a connection that was over leaves it over, and then it is no session. -/
theorem Settled.put (h : l.Settled) (hc : l.connections[n]? = some c)
    (hr : t.connection.task = .running → c.task = .running) (ha : t.connection.AtRest) :
    (l.put n t).Settled where
  atRest b hb := by
    rcases List.mem_or_eq_of_mem_set hb with hb | rfl
    · exact h.atRest b hb
    · exact ha
  nodup := by
    simp only [Listener.put]
    split
    · exact h.nodup
    · exact h.nodup.erase n
  mem_sessions i := by
    obtain ⟨hlt, -⟩ := List.getElem?_eq_some_iff.1 hc
    have hi := h.mem_sessions i
    by_cases hin : i = n
    · subst hin
      rw [get_put_self hlt t]
      by_cases ht : t.connection.task = .running
      · have hm : i ∈ l.sessions := hi.2 ⟨c, hc, hr ht⟩
        simp [Listener.put, ht, hm]
      · simp [Listener.put, ht, h.nodup.mem_erase_iff]
    · rw [get_put_of_ne hin, ← hi]
      simp only [Listener.put]
      split
      · rfl
      · rw [h.nodup.mem_erase_iff]
        exact and_iff_right hin

/-- A connection is handled exactly as long as its session is open. -/
theorem Settled.running_iff (h : l.Settled) (hc : l.connections[n]? = some c) :
    c.task = .running ↔ n ∈ l.sessions := by
  rw [h.mem_sessions n, hc]
  simp

/-- The number of a connection that is accepted is new. -/
theorem Settled.fresh (h : l.Settled) {i : Nat} (hi : l.connections.length ≤ i) :
    i ∉ l.sessions := by
  rw [h.mem_sessions, List.getElem?_eq_none hi]
  rintro ⟨c, ⟨⟩, -⟩

/-- A connection at rest is added, and to the sessions unless it is over. -/
theorem Settled.add (h : l.Settled) (ha : c.AtRest) (hc : l'.connections = l.connections ++ [c])
    (hs : l'.sessions =
      if c.task = .running then l.sessions ++ [l.connections.length] else l.sessions) :
    l'.Settled where
  atRest b hb := by
    rw [hc] at hb
    rcases List.mem_append.1 hb with hb | hb
    · exact h.atRest b hb
    · rwa [List.mem_singleton.1 hb]
  nodup := by
    rw [hs]
    split
    · refine List.nodup_append.2 ⟨h.nodup, List.pairwise_singleton _ _, ?_⟩
      rintro i hi j hj rfl
      exact h.fresh (Nat.le_of_eq (List.mem_singleton.1 hj).symm) hi
    · exact h.nodup
  mem_sessions i := by
    have hi := h.mem_sessions i
    rw [hc, hs]
    rcases Nat.lt_trichotomy i l.connections.length with hlt | rfl | hlt
    · rw [List.getElem?_append_left hlt, ← hi]
      split
      · simp [Nat.ne_of_lt hlt]
      · rfl
    · have hfresh := h.fresh (Nat.le_refl _)
      by_cases ht : c.task = .running <;> simp [ht, hfresh]
    · have hfresh := h.fresh (Nat.le_of_lt hlt)
      have hnone : (l.connections ++ [c])[i]? = none := by
        rw [List.getElem?_eq_none_iff, List.length_append, List.length_singleton]
        omega
      rw [hnone]
      split <;> simp [hfresh, Nat.ne_of_gt hlt]

theorem Settled.connect (h : l.Settled) (peer : Option (List Value)) (faults : FaultPlan) :
    (l.connect peer faults).1.Settled := by
  cases hl : l.isListening with
  | false => rwa [connect_of_not_listening hl]
  | true =>
    rw [connect_of_listening hl]
    refine h.add (Connection.accept_atRest _ faults l.directive l.gate) rfl ?_
    simp only
    rw [List.erase_append_right _ (h.fresh (Nat.le_refl _)), List.erase_cons_head, List.append_nil]

theorem Settled.dropSessions (xs : List Nat) (h : l.Settled) : (dropSessions xs l).1.Settled := by
  induction xs generalizing l with
  | nil => exact h
  | cons n rest ih =>
    cases hc : l.connections[n]? with
    | none => rw [dropSessions_of_none hc]; exact ih h
    | some c =>
      cases hf : c.session.faults.abort with
      | some f => rw [dropSessions_of_fault hc hf]; exact h
      | none =>
        rw [dropSessions_of_some hc hf]
        exact ih (h.put hc (c.drop_passes l.gate).running (c.drop_atRest l.gate))

/-! ### Every step -/

theorem start_sessions (l : Listener) : l.start.state.sessions = l.sessions := by
  rw [start]
  cases l.binding.bind l.port <;> rfl

theorem serve_sessions (l : Listener) : l.serve.1.sessions = l.sessions := by
  rw [serve]
  split
  · rfl
  · exact l.start_sessions

theorem Settled.act (h : l.Settled) (s : Step) : (l.act s).1.Settled := by
  cases ht : s.target with
  | some m =>
    rw [act_of_target ht]
    cases hb : l.connections[m]?.bind (s.reaction l.directive l.gate) with
    | none => rwa [onConnection_of_none hb]
    | some t =>
      obtain ⟨c, hc, hr⟩ := Option.bind_eq_some_iff.1 hb
      have hrest := h.atRest c (List.mem_of_getElem? hc)
      rw [onConnection_of_some hc hr]
      exact h.put hc (Connection.reaction_passes hr hrest).running
        (Connection.reaction_atRest hr hrest)
  | none =>
    cases s with
    | start => exact h.of_same l.start_connections l.start_sessions
    | shutdown => exact h.of_same rfl rfl
    | serve => exact h.of_same l.serve_connections l.serve_sessions
    | close =>
      have hs : l.shut.state.Settled := h.of_same rfl rfl
      simp only [Listener.act, close]
      cases l.shut.error with
      | some f => exact hs.of_same rfl rfl
      | none => exact (hs.dropSessions l.openSessions).of_same rfl rfl
    | connect peer faults => exact h.connect peer faults
    | setCloseFault f => exact h.of_same rfl rfl
    | receive | endInbound | reset | wake | setFault => cases ht

theorem Steady.step (h : l.Steady) (s : Step) : (l.step s).1.Steady := by
  have hstep : (l.step s).1 = (l.act s).1.notice := rfl
  rw [hstep]
  exact ⟨(h.toSettled.act s).of_same rfl rfl, notice_notice _⟩

theorem new_steady (host : Option Text) (port : Option Int) (directive : Option Directive)
    (binding : Binding) (order : SetOrder) :
    (Listener.new host port directive binding order).Steady where
  atRest c hc := by cases hc
  nodup := List.nodup_nil
  mem_sessions n := by
    constructor
    · intro h
      cases h
    · rintro ⟨c, ⟨⟩, -⟩
  noticed := rfl

theorem Steady.after (h : l.Steady) (steps : List Step) : (l.after steps).Steady := by
  induction steps generalizing l with
  | nil => exact h
  | cons s rest ih => exact ih (h.step s)

end Listener
end ScriptedServer
