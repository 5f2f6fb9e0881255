import ScriptedServer.Proofs.ByteParsing

/-!
A directive that is written into a request is read off it again. What has to be asked of the directive
is that its names and parameters hold none of the characters at which a block is cut, and that it does
not write as nothing (`Writable`). Every block that is read holds such a directive and is what the
directive writes as (`ofText?_eq_some_iff`). In bytes, anything may stand around the block as long as
there is no marker in front of it.
-/

namespace ScriptedServer

namespace Action

variable {a : Action} {c : Char}

theorem ofToken_render (h : '=' ∉ a.name) : ofToken a.render = a := by
  obtain ⟨name, param⟩ := a
  cases param with
  | none => exact ofToken_of_not_mem h
  | some p => exact ofToken_append h p

theorem render_ofToken (token : Text) : (ofToken token).render = token := by
  by_cases hm : '=' ∈ token
  · obtain ⟨name, param, rfl, hname⟩ := List.eq_append_cons_of_mem hm
    rw [ofToken_append hname]
    rfl
  · rw [ofToken_of_not_mem hm]
    rfl

theorem not_mem_name_ofToken (token : Text) : '=' ∉ (ofToken token).name := by
  intro h
  simpa using List.mem_takeWhile_imp h

theorem mem_render_iff (hc : c ≠ '=') :
    c ∈ a.render ↔ c ∈ a.name ∨ ∃ p ∈ a.param, c ∈ p := by
  obtain ⟨name, param⟩ := a
  cases param <;> simp [render, hc]

theorem render_eq_nil_iff : a.render = [] ↔ a = ⟨[], none⟩ := by
  obtain ⟨name, param⟩ := a
  cases param <;> simp [render]

end Action

namespace Directive

/-- What a directive has to be like for a block to be read as it. -/
structure Writable (d : Directive) : Prop where
  nonempty : d ≠ []
  /-- The one action that writes as nothing is not read off it: an empty block holds no action. -/
  shown : d ≠ [⟨[], none⟩]
  names : ∀ a ∈ d, ',' ∉ a.name ∧ ']' ∉ a.name ∧ '=' ∉ a.name
  params : ∀ a ∈ d, ∀ p ∈ a.param, ',' ∉ p ∧ ']' ∉ p

instance (d : Directive) : Decidable d.Writable :=
  decidable_of_iff
    (d ≠ [] ∧ d ≠ [⟨[], none⟩] ∧ (∀ a ∈ d, ',' ∉ a.name ∧ ']' ∉ a.name ∧ '=' ∉ a.name)
      ∧ ∀ a ∈ d, ∀ p ∈ a.param, ',' ∉ p ∧ ']' ∉ p)
    ⟨fun ⟨h, h₁, h₂, h₃⟩ => ⟨h, h₁, h₂, h₃⟩, fun h => ⟨h.nonempty, h.shown, h.names, h.params⟩⟩

/-- Whether a directive stands written in a text, behind the first marker and up to the first `]`
behind that. -/
def StandsIn (d : Directive) (t : Text) : Prop :=
  ∃ pre post, t = pre ++ marker ++ (render d ++ ']' :: post) ∧ ¬ marker <:+: pre ∧ ']' ∉ render d

variable {d : Directive} {c : Char}

/-! ### Writing -/

theorem render_cons_cons (a b : Action) (d : Directive) :
    render (a :: b :: d) = a.render ++ ',' :: render (b :: d) := by
  simp [render, List.intercalate_cons_cons]

theorem mem_render_iff (hc : c ≠ ',') : c ∈ render d ↔ ∃ a ∈ d, c ∈ a.render := by
  induction d with
  | nil => simp [render]
  | cons a d ih =>
    cases d with
    | nil => simp [render]
    | cons b d => simp [render_cons_cons, hc, ih]

theorem Writable.comma_not_mem (h : d.Writable) : ∀ a ∈ d, ',' ∉ a.render := by
  intro a ha hm
  rcases (Action.mem_render_iff (by decide)).1 hm with hname | ⟨p, hp, hparam⟩
  · exact (h.names a ha).1 hname
  · exact (h.params a ha p hp).1 hparam

theorem Writable.bracket_not_mem (h : d.Writable) : ']' ∉ render d := by
  intro hm
  obtain ⟨a, ha, hm⟩ := (mem_render_iff (by decide)).1 hm
  rcases (Action.mem_render_iff (by decide)).1 hm with hname | ⟨p, hp, hparam⟩
  · exact (h.names a ha).2.1 hname
  · exact (h.params a ha p hp).2 hparam

theorem Writable.render_ne_nil (h : d.Writable) : render d ≠ [] := by
  match d, h with
  | [], h => exact absurd rfl h.nonempty
  | [a], h =>
    intro hr
    have ha : a.render = [] := by simpa [render] using hr
    exact h.shown (by rw [Action.render_eq_nil_iff.1 ha])
  | a :: b :: d, h => simp [render_cons_cons]

/-! ### Reading -/

/-- What a directive writes as is read as that directive. -/
theorem Writable.ofBody_render (h : d.Writable) : ofBody (render d) = d := by
  have hcut : (render d).splitOn ',' = d.map Action.render :=
    List.splitOn_intercalate _ (List.forall_mem_map.2 h.comma_not_mem) (by simpa using h.nonempty)
  have hback : (d.map Action.render).map Action.ofToken = d := by
    rw [List.map_map]
    exact (List.map_congr_left fun a ha => Action.ofToken_render (h.names a ha).2.2).trans
      (List.map_id d)
  rw [ofBody, if_neg h.render_ne_nil, Text.split_eq_splitOn, hcut, hback]

/-- The actions of a block write as that block. -/
theorem render_ofBody (body : Text) : render (ofBody body) = body := by
  rw [ofBody]
  split
  · rename_i hbody
    exact hbody.symm
  · have hid : Action.render ∘ Action.ofToken = id := funext Action.render_ofToken
    rw [render, List.map_map, hid, List.map_id, Text.split_eq_splitOn, List.intercalate_splitOn]

theorem mem_ofBody {body : Text} {a : Action} (ha : a ∈ ofBody body) :
    ∃ token ∈ body.splitOn ',', a = Action.ofToken token := by
  rw [ofBody] at ha
  split at ha
  · cases ha
  · rw [Text.split_eq_splitOn] at ha
    obtain ⟨token, htoken, rfl⟩ := List.mem_map.1 ha
    exact ⟨token, htoken, rfl⟩

/-- A block that is not empty is read as a directive that could have been written there. -/
theorem writable_ofBody {body : Text} (hne : body ≠ []) (hbody : ']' ∉ body) :
    (ofBody body).Writable := by
  have hback := render_ofBody body
  have hcomma : ∀ a ∈ ofBody body, ',' ∉ a.render := by
    intro a ha
    obtain ⟨token, htoken, rfl⟩ := mem_ofBody ha
    rw [Action.render_ofToken]
    exact not_mem_of_mem_splitOn htoken
  have hbracket : ∀ a ∈ ofBody body, ']' ∉ a.render := by
    intro a ha hm
    exact hbody (hback ▸ (mem_render_iff (by decide)).2 ⟨a, ha, hm⟩)
  refine ⟨fun h => hne ?_, fun h => hne ?_, fun a ha => ?_, fun a ha p hp => ?_⟩
  · rw [← hback, h]
    rfl
  · rw [← hback, h]
    rfl
  · obtain ⟨token, -, rfl⟩ := mem_ofBody ha
    exact ⟨fun h => hcomma _ ha ((Action.mem_render_iff (by decide)).2 (.inl h)),
      fun h => hbracket _ ha ((Action.mem_render_iff (by decide)).2 (.inl h)),
      Action.not_mem_name_ofToken token⟩
  · exact ⟨fun h => hcomma a ha ((Action.mem_render_iff (by decide)).2 (.inr ⟨p, hp, h⟩)),
      fun h => hbracket a ha ((Action.mem_render_iff (by decide)).2 (.inr ⟨p, hp, h⟩))⟩

/-- The directives with an action that a text may carry are those that can be written, and a text
carries the one that stands written in it. -/
theorem ofText?_eq_some_iff {t : Text} (hd : d ≠ []) :
    ofText? t = some d ↔ d.Writable ∧ d.StandsIn t := by
  rw [ofText?, Option.map_eq_some_iff]
  constructor
  · rintro ⟨body, hbody, rfl⟩
    obtain ⟨pre, post, rfl, hpre, hstop⟩ := body?_eq_some_iff.1 hbody
    have hne : body ≠ [] := by
      rintro rfl
      exact hd rfl
    refine ⟨writable_ofBody hne hstop, pre, post, ?_⟩
    rw [render_ofBody]
    exact ⟨rfl, hpre, hstop⟩
  · rintro ⟨hw, hstands⟩
    exact ⟨render d, body?_eq_some_iff.2 hstands, hw.ofBody_render⟩

/-- Between bytes that hold no marker and any others, an encoded block stands decoded. -/
theorem Writable.standsIn_decode (h : d.Writable) {pre : List UInt8}
    (hpre : ¬ RawDirective.marker <:+: pre) (post : List UInt8) :
    d.StandsIn (Utf8.decode (pre ++ Utf8.encode (marker ++ render d ++ [']']) ++ post)) := by
  have hm := RawDirective.marker_ascii
  refine ⟨Utf8.decode pre, Utf8.decode post, ?_, ?_, h.bracket_not_mem⟩
  · have hbytes : Utf8.encode (marker ++ render d ++ [']'])
        = RawDirective.marker ++ Utf8.encode (render d ++ [']']) := by
      rw [List.append_assoc, Utf8.encode, List.flatMap_append]
      rfl
    refine (Utf8.decode_eq_append_word_iff RawDirective.marker_ne_nil hm).2
      ⟨pre, Utf8.encode (render d ++ [']']) ++ post, ?_, rfl, ?_⟩
    · rw [hbytes]
      simp only [List.append_assoc]
    · rw [Utf8.decode_encode_append, List.append_assoc]
      rfl
  · exact fun hin => hpre ((Utf8.ascii_infix_decode_iff RawDirective.marker_ne_nil hm).1 hin)

/-- A directive that can be written is read off any bytes that carry it behind no other marker; and
whatever is read with an action in it could have been written, and stands written in what was read. -/
theorem read_as_written :
    (∀ d, Writable d → ∀ pre post, ¬ RawDirective.marker <:+: pre →
      ofBytes? (pre ++ Utf8.encode (marker ++ render d ++ [']']) ++ post) = some d)
    ∧ (∀ t d, ofText? t = some d → d ≠ [] → d.Writable ∧ d.StandsIn t)
    ∧ ∀ bs d, ofBytes? bs = some d → d ≠ [] → d.Writable ∧ d.StandsIn (Utf8.decode bs) := by
  refine ⟨fun d hd pre post hpre => ?_, fun t d h hne => ?_, fun bs d h hne => ?_⟩
  · exact (ofText?_eq_some_iff hd.nonempty).2 ⟨hd, hd.standsIn_decode hpre post⟩
  · exact (ofText?_eq_some_iff hne).1 h
  · exact (ofText?_eq_some_iff hne).1 h

/-- Behind a character cut short and the beginning of a marker, with an equals sign and a marker in one
parameter, an empty parameter and none. -/
theorem read_as_written_garbled :
    let d : Directive := [⟨"SEND".toList, some "a=ACT[".toList⟩, ⟨"é".toList, some []⟩, ⟨[], none⟩]
    let bs := [0xE2, 0x82, 0x41, 0x43, 0x54]
      ++ Utf8.encode (marker ++ render d ++ [']']) ++ [0x5D, 0xFF]
    d.Writable ∧ ofBytes? bs = some d ∧ d.StandsIn (Utf8.decode bs) := by
  intro d bs
  have hd : d.Writable := by decide
  have hread : ofBytes? bs = some d :=
    read_as_written.1 d hd [0xE2, 0x82, 0x41, 0x43, 0x54] [0x5D, 0xFF] (by decide)
  exact ⟨hd, hread, (read_as_written.2.2 bs d hread hd.nonempty).2⟩

end Directive
end ScriptedServer
