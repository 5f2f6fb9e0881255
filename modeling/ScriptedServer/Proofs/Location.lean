import ScriptedServer.Proofs.RoundTrip

/-!
Which block of a text is read. A text that has a bracket behind a marker, be it any of several, can be
taken apart in exactly one way so that no marker stands in front of the block and no bracket in it
(`Cut.IsFirst.unique`). What is read is what that block holds: no action if it is empty, and else one for
each piece between commas. So what follows the block makes no difference, and neither does what is in
front of it.
-/

namespace ScriptedServer

/-- There is one piece more than there are separators. -/
theorem length_splitOn {α : Type} [DecidableEq α] (sep : α) (xs : List α) :
    (xs.splitOn sep).length = xs.count sep + 1 := by
  induction xs with
  | nil => simp
  | cons x xs ih =>
    rw [List.splitOn_cons_eq_if_modifyHead]
    by_cases hx : x = sep
    · rw [if_pos (beq_iff_eq.2 hx), List.length_cons, ih, hx, List.count_cons_self]
    · rw [if_neg (by simpa using hx), List.length_modifyHead, ih, List.count_cons_of_ne hx]

namespace Directive

/-- A text taken apart at a block. -/
@[ext]
structure Cut where
  pre : Text
  body : Text
  post : Text

namespace Cut

/-- The text that is taken apart. -/
def whole (c : Cut) : Text := c.pre ++ marker ++ (c.body ++ ']' :: c.post)

/-- Whether a text is taken apart at its first marker and at the first bracket behind that. -/
structure IsFirst (c : Cut) (t : Text) : Prop where
  eq_whole : t = c.whole
  pre : ¬ marker <:+: c.pre
  body : ']' ∉ c.body

variable {c c' : Cut} {t : Text}

theorem IsFirst.behind (h : c.IsFirst t) : behind? marker t = some (c.body ++ ']' :: c.post) :=
  (behind?_eq_some_iff marker_ne_nil marker_borderless).2 ⟨c.pre, h.eq_whole, h.pre⟩

theorem IsFirst.body? (h : c.IsFirst t) : Directive.body? t = some c.body :=
  body?_eq_some_iff.2 ⟨c.pre, c.post, h.eq_whole, h.pre, h.body⟩

theorem IsFirst.ofText? (h : c.IsFirst t) : Directive.ofText? t = some (ofBody c.body) := by
  rw [Directive.ofText?, h.body?]
  rfl

/-- There is but one such way. -/
theorem IsFirst.unique (h : c.IsFirst t) (h' : c'.IsFirst t) : c' = c := by
  have hbody : c'.body = c.body := Option.some.inj (h'.body?.symm.trans h.body?)
  have hrest : c'.body ++ ']' :: c'.post = c.body ++ ']' :: c.post :=
    Option.some.inj (h'.behind.symm.trans h.behind)
  have hpost : c'.post = c.post := by
    rw [hbody] at hrest
    exact (List.cons.inj (List.append_cancel_left hrest)).2
  have hpre : c'.pre = c.pre := by
    have hwhole : c'.whole = c.whole := h'.eq_whole.symm.trans h.eq_whole
    rw [whole, whole, hrest] at hwhole
    exact List.append_cancel_right (List.append_cancel_right hwhole)
  exact Cut.ext hpre hbody hpost

/-- More text behind the block is left over with the rest. -/
theorem IsFirst.append (h : c.IsFirst t) (more : Text) :
    IsFirst { c with post := c.post ++ more } (t ++ more) where
  eq_whole := by
    rw [h.eq_whole]
    simp [whole]
  pre := h.pre
  body := h.body

/-- In front of the block anything else may stand that holds no marker. -/
theorem IsFirst.replace (h : c.IsFirst t) {pre : Text} (hpre : ¬ marker <:+: pre) :
    IsFirst { c with pre } { c with pre }.whole :=
  ⟨rfl, hpre, h.body⟩

end Cut

/-- Whether a directive is what a block holds: no action if the block is empty, and else one for each
piece between commas, in their order, of which the name is what stands in front of its first equals
sign. -/
structure Holds (body : Text) (d : Directive) : Prop where
  empty : body = [] → d = []
  pieces : body ≠ [] → d.map Action.render = body.splitOn ','
  count : body ≠ [] → d.length = body.count ',' + 1
  names : ∀ a ∈ d, '=' ∉ a.name

theorem ofBody_holds (body : Text) : Holds body (ofBody body) where
  empty h := if_pos h
  pieces h := by
    have hid : Action.render ∘ Action.ofToken = id := funext Action.render_ofToken
    rw [ofBody, if_neg h, List.map_map, hid, List.map_id, Text.split_eq_splitOn]
  count h := by
    rw [ofBody, if_neg h, List.length_map, Text.split_eq_splitOn, length_splitOn]
  names a ha := by
    obtain ⟨token, -, rfl⟩ := mem_ofBody ha
    exact Action.not_mem_name_ofToken token

/-- A text that carries a directive can be taken apart at its first block. -/
theorem exists_cut {t : Text} {d : Directive} (h : ofText? t = some d) :
    ∃ c : Cut, c.IsFirst t ∧ d = ofBody c.body := by
  obtain ⟨body, hbody, rfl⟩ := Option.map_eq_some_iff.1 h
  obtain ⟨pre, post, ht, hpre, hstop⟩ := body?_eq_some_iff.1 hbody
  exact ⟨⟨pre, body, post⟩, ⟨ht, hpre, hstop⟩, rfl⟩

/-- A text carries no directive exactly if there is no bracket behind any marker in it. Any other text
can be taken apart in exactly one way with no marker in front of the block and no bracket in it, and
carries what that block holds; so it does with anything behind it, and with anything else in front of the
block that holds no marker. -/
theorem first_block_read (t : Text) :
    (ofText? t = none ↔ ∀ x y, t = x ++ marker ++ y → ']' ∉ y)
      ∧ ∀ d, ofText? t = some d → ∃ c : Cut, c.IsFirst t ∧ (∀ c' : Cut, c'.IsFirst t → c' = c)
        ∧ Holds c.body d
        ∧ (∀ more, ofText? (t ++ more) = some d)
        ∧ ∀ pre, ¬ marker <:+: pre → ofText? { c with pre }.whole = some d := by
  constructor
  · rw [ofText?_eq_none_iff]
    constructor
    · rintro h x y rfl hy
      obtain ⟨body, post, rfl⟩ := List.append_of_mem hy
      exact h x body post rfl
    · rintro h pre body post rfl
      exact h pre _ rfl (by simp)
  · intro d hd
    obtain ⟨c, hc, rfl⟩ := exists_cut hd
    refine ⟨c, hc, fun c' hc' => hc.unique hc', ofBody_holds c.body, fun more => ?_, fun pre hpre => ?_⟩
    · exact (hc.append more).ofText?
    · exact (hc.replace hpre).ofText?

/-- Brackets and the beginning of a marker stand in front of the block, a marker in it and one behind. -/
theorem first_block_read_straddled :
    let t : Text := "]ACTACT[SEND=a=ACT[b,,WAIT]CT[ACT[CLOSE]".toList
    let d : Directive := [⟨"SEND".toList, some "a=ACT[b".toList⟩, ⟨[], none⟩, ⟨"WAIT".toList, none⟩]
    ofText? t = some d ∧ ofText? (t ++ "]".toList) = some d
      ∧ ∃ c : Cut, c.IsFirst t ∧ d.length = c.body.count ',' + 1
        ∧ ¬ marker <:+: "ACT".toList ∧ ofText? { c with pre := "ACT".toList }.whole = some d := by
  intro t d
  have hd : ofText? t = some d := by decide
  have hpre : ¬ marker <:+: "ACT".toList := by decide
  obtain ⟨-, hread⟩ := first_block_read t
  obtain ⟨c, hc, -, hholds, hmore, hother⟩ := hread d hd
  have hbody : c.body ≠ [] := fun he => absurd (hholds.empty he) (by decide)
  exact ⟨hd, hmore _, c, hc, hholds.count hbody, hpre, hother _ hpre⟩

end Directive
end ScriptedServer
