import ScriptedServer.Proofs.Effects
import ScriptedServer.Proofs.RoundTrip

/-!
Any bytes can be sent. A text spells bytes if each of them stands in it as `%` with two hexadecimal
digits, or as its own character of ASCII, unless that is a `%` or would end the action or the block
(`Percent.Spells`). A parameter is decoded to the bytes that it spells (`Spells.decode`), however the two
ways are mixed: what follows an escape is read afresh, so a digit behind one is not taken into it. The
rest is the way through the program: what spells holds no comma and no bracket, so the block is read as
one action for each text, and sends on an open session are all completed (`complete_sends`).
-/

namespace ScriptedServer

namespace Percent

/-- The hexadecimal digits with their values, in both cases. -/
def digits : List (Char × Nat) :=
  "0123456789abcdef".toList.zipIdx ++ "0123456789ABCDEF".toList.zipIdx

/-- Whether a text spells bytes, each in one of the two ways. -/
inductive Spells : Text → List UInt8 → Prop
  | nil : Spells [] []
  | itself {c : Char} {t : Text} {bs : List UInt8} (hc : c.toNat < 0x80) (hpercent : c ≠ '%')
      (hcomma : c ≠ ',') (hbracket : c ≠ ']') (h : Spells t bs) :
      Spells (c :: t) (c.toNat.toUInt8 :: bs)
  | escaped {high low : Char} {b : UInt8} {t : Text} {bs : List UInt8}
      (hhigh : (high, b.toNat / 16) ∈ digits) (hlow : (low, b.toNat % 16) ∈ digits)
      (h : Spells t bs) : Spells ('%' :: high :: low :: t) (b :: bs)

/-! ### Digits -/

/-- A digit is of ASCII, is read as its value, and is no comma and no bracket. -/
theorem digit_spec : ∀ p ∈ digits, p.1.toNat < 0x80
    ∧ hexDigit? p.1.toNat.toUInt8 = some p.2.toUInt8 ∧ p.1 ≠ ',' ∧ p.1 ≠ ']' := by
  decide

theorem exists_digit : ∀ v < 16, ∃ c, (c, v) ∈ digits := by
  intro v hv
  have h : ∀ v < 16, ("0123456789abcdef".toList.getD v '0', v) ∈ digits := by decide
  exact ⟨_, h v hv⟩

theorem nibbles (b : UInt8) : 16 * (b.toNat / 16).toUInt8 + (b.toNat % 16).toUInt8 = b := by
  have hb := b.toNat_lt
  have hhigh : (b.toNat / 16).toUInt8.toNat = b.toNat / 16 := Utf8.toNat_toUInt8 (by omega)
  have hlow : (b.toNat % 16).toUInt8.toNat = b.toNat % 16 := Utf8.toNat_toUInt8 (by omega)
  have hsixteen : (16 : UInt8).toNat = 16 := rfl
  refine UInt8.toNat_inj.1 ?_
  rw [UInt8.toNat_add, UInt8.toNat_mul, hhigh, hlow, hsixteen]
  omega

/-! ### Decoding -/

theorem encode_cons_ascii {c : Char} (hc : c.toNat < 0x80) (t : Text) :
    Utf8.encode (c :: t) = c.toNat.toUInt8 :: Utf8.encode t := by
  rw [Utf8.encode, List.flatMap_cons, Utf8.encodeChar, if_pos hc]
  rfl

/-- A byte that is no `%` stands for itself where nothing is held back. -/
theorem step_plain {b : UInt8} (hb : b ≠ 0x25) : step .plain b = ([b], .plain) := by
  have hafresh : afresh b = ([b], .plain) := by rw [afresh, if_neg hb]
  rw [step, hafresh]
  · rfl
  · intro v hs
    cases hs
  · intro b' high v hs
    cases hs

/-- Text is decoded to the bytes that it spells. -/
theorem Spells.decode {t : Text} {bs : List UInt8} (h : Spells t bs) :
    Percent.decode (Utf8.encode t) = bs := by
  rw [Percent.decode, Transducer.run_eq]
  show decoder.runFrom .plain _ = bs
  induction h with
  | nil => rfl
  | @itself c t bs hc hpercent _ _ _ ih =>
    have hb : c.toNat.toUInt8 ≠ 0x25 := by
      intro he
      have hn : c.toNat = 0x25 := by
        rw [← Utf8.toNat_toUInt8 (by omega : c.toNat < 256), he]
        rfl
      exact hpercent (by rw [← Char.ofNat_toNat c, hn])
    have hstep : decoder.step .plain c.toNat.toUInt8 = ([c.toNat.toUInt8], .plain) := step_plain hb
    rw [encode_cons_ascii hc, Transducer.runFrom, hstep]
    exact congrArg (c.toNat.toUInt8 :: ·) ih
  | @escaped high low b t bs hhigh hlow _ ih =>
    obtain ⟨hchigh, hvhigh, -⟩ := digit_spec _ hhigh
    obtain ⟨hclow, hvlow, -⟩ := digit_spec _ hlow
    have hpercent : decoder.step .plain 0x25 = ([], .percent) := rfl
    have hfirst : decoder.step .percent high.toNat.toUInt8
        = ([], .digit high.toNat.toUInt8 (b.toNat / 16).toUInt8) := by
      show step _ _ = _
      rw [step.eq_def, hvhigh]
    have hsecond : decoder.step (.digit high.toNat.toUInt8 (b.toNat / 16).toUInt8)
        low.toNat.toUInt8 = ([b], .plain) := by
      show step _ _ = _
      rw [step.eq_def, hvlow]
      simp only [nibbles]
    rw [encode_cons_ascii (by decide), encode_cons_ascii hchigh, encode_cons_ascii hclow]
    simp only [Transducer.runFrom]
    rw [show ('%' : Char).toNat.toUInt8 = 0x25 from rfl, hpercent, hfirst, hsecond]
    exact congrArg (b :: ·) ih

/-- What spells bytes stays within its action and its block. -/
theorem Spells.not_mem {t : Text} {bs : List UInt8} (h : Spells t bs) : ',' ∉ t ∧ ']' ∉ t := by
  induction h with
  | nil => simp
  | itself _ _ hcomma hbracket _ ih => simp [hcomma.symm, hbracket.symm, ih]
  | escaped hhigh hlow _ ih =>
    obtain ⟨-, -, hcomma, hbracket⟩ := digit_spec _ hhigh
    obtain ⟨-, -, hcomma', hbracket'⟩ := digit_spec _ hlow
    simp [hcomma.symm, hbracket.symm, hcomma'.symm, hbracket'.symm, ih]

/-- All bytes can be spelled. -/
theorem exists_spelling (bs : List UInt8) : ∃ t, Spells t bs := by
  induction bs with
  | nil => exact ⟨[], .nil⟩
  | cons b bs ih =>
    obtain ⟨t, ht⟩ := ih
    have hb := b.toNat_lt
    obtain ⟨high, hhigh⟩ := exists_digit (b.toNat / 16) (by omega)
    obtain ⟨low, hlow⟩ := exists_digit (b.toNat % 16) (by omega)
    exact ⟨_, .escaped hhigh hlow ht⟩

end Percent

namespace Directive

/-! ### Sends -/

/-- The action that sends what a text spells. -/
def send (t : Text) : Action := ⟨"SEND".toList, some t⟩

theorem send_kind (t : Text) : (send t).kind = some .send := rfl

/-- What is seen of a send that is completed. -/
def sent (t : Text) (bs : List UInt8) : List Event := [.log (.executing (send t)), .write (.bytes bs)]

/-- The request for one send after the other. -/
def request (ts : List Text) : Text :=
  marker ++ [','].intercalate (ts.map ("SEND=".toList ++ ·)) ++ [']']

variable {ps : List (Text × List UInt8)}

/-- Where nothing fails and the outbound side is open, everything is sent. -/
theorem complete_sends (hs : ∀ p ∈ ps, Percent.Spells p.1 p.2) (st : Stage)
    (hopen : st.session.isClosing = false) (hfaults : st.session.faults = {}) :
    complete (ps.map (send ·.1)) st
      = ⟨st, ps.flatMap fun p => sent p.1 p.2, ps.map (send ·.1), .done⟩ := by
  induction ps with
  | nil => rfl
  | cons p ps ih =>
    obtain ⟨hp, hrest⟩ := List.forall_mem_cons.1 hs
    have hpayload : Action.payload (send p.1).param = p.2 := hp.decode
    have hsupply : (send p.1).param.bind st.session.supply.encoding = none := by
      rw [Session.supply, hfaults]
      rfl
    have hattempt : (send p.1).attempt st = { state := st, events := sent p.1 p.2 } := by
      simp only [Action.attempt, send_kind, Action.perform, hsupply, hpayload, Session.write, hopen,
        hfaults]
      rfl
    rw [List.map_cons, complete_go _ (by rw [hattempt]), hattempt]
    simp only [ih hrest, Run.after, List.flatMap_cons]

theorem render_sends (ts : List Text) :
    render (ts.map send) = [','].intercalate (ts.map ("SEND=".toList ++ ·)) := by
  rw [render, List.map_map]
  rfl

/-- Sends of what is spelled can be written into a request. -/
theorem writable_sends (hne : ps ≠ []) (hs : ∀ p ∈ ps, Percent.Spells p.1 p.2) :
    Writable (ps.map (send ·.1)) where
  nonempty := by simpa using hne
  shown := by
    intro h
    obtain ⟨p, -, hp⟩ := List.mem_map.1 (h ▸ List.mem_singleton_self (⟨[], none⟩ : Action))
    cases hp
  names a ha := by
    obtain ⟨p, -, rfl⟩ := List.mem_map.1 ha
    simp [send]
  params a ha param hparam := by
    obtain ⟨p, hp, rfl⟩ := List.mem_map.1 ha
    obtain rfl : p.1 = param := Option.some.inj hparam
    exact (hs p hp).not_mem

theorem ofText?_request (hne : ps ≠ []) (hs : ∀ p ∈ ps, Percent.Spells p.1 p.2) :
    ofText? (request (ps.map (·.1))) = some (ps.map (send ·.1)) := by
  have hw := writable_sends hne hs
  refine (ofText?_eq_some_iff hw.nonempty).2 ⟨hw, [], [], ?_, ?_, hw.bracket_not_mem⟩
  · have hrender := render_sends (ps.map (·.1))
    rw [List.map_map] at hrender
    rw [request, ← hrender, List.nil_append, List.append_assoc]
    rfl
  · intro h
    exact marker_ne_nil (List.infix_nil.1 h)

/-- All bytes can be spelled, and a request for any number of sends, each of a text that spells bytes, is
read as so many actions, be it as a text or in bytes. Executed on an open session without faults they
are all completed: each is announced and writes the bytes that its text spells, and nothing else is seen
or changed. -/
theorem sends_as_spelled :
    (∀ bs : List UInt8, ∃ t, Percent.Spells t bs)
    ∧ ∀ ps : List (Text × List UInt8), ps ≠ [] → (∀ p ∈ ps, Percent.Spells p.1 p.2) →
      ∃ d, ofText? (request (ps.map (·.1))) = some d
        ∧ ofBytes? (Utf8.encode (request (ps.map (·.1)))) = some d
        ∧ d.length = ps.length
        ∧ ∀ (s : Session) (g : Option Gate), s.isClosing = false → s.faults = {} →
            let r := execute d ⟨s, g⟩
            Account.ofEnding r.result.1 r.result.2 = .ok { status := .done, completed := d }
              ∧ r.events = ps.flatMap (fun p => sent p.1 p.2)
              ∧ r.stage = ⟨s, g⟩ := by
  refine ⟨Percent.exists_spelling, ?_⟩
  intro ps hne hs
  have hread := ofText?_request hne hs
  refine ⟨ps.map (send ·.1), hread, ?_, List.length_map _, ?_⟩
  · rw [ofBytes?, Utf8.decode_encode]
    exact hread
  · intro s g hopen hfaults r
    have hr : r = ⟨⟨s, g⟩, ps.flatMap fun p => sent p.1 p.2, ps.map (send ·.1), .done⟩ := by
      have hcomplete := complete_sends hs ⟨s, g⟩ hopen hfaults
      simp only [r, execute]
      rw [if_neg (by simpa using hne), hcomplete]
    rw [hr]
    exact ⟨rfl, rfl, rfl⟩

/-- An escape with a digit behind it that is not part of it, a marker and an equals sign that stand for
themselves, nothing at all, and an escaped comma in either case. -/
theorem sends_as_spelled_mixed :
    let ps : List (Text × List UInt8) :=
      [("%411".toList, [0x41, 0x31]), ("ACT[=".toList, [0x41, 0x43, 0x54, 0x5B, 0x3D]), ([], []),
        ("%2c%2C%fF".toList, [0x2C, 0x2C, 0xFF])]
    (∀ p ∈ ps, Percent.Spells p.1 p.2)
      ∧ ∃ d, ofText? "ACT[SEND=%411,SEND=ACT[=,SEND=,SEND=%2c%2C%fF]".toList = some d
        ∧ d.length = 4
        ∧ (execute d ⟨{ peer := [] }, none⟩).events = ps.flatMap fun p => sent p.1 p.2 := by
  intro ps
  have hs : ∀ p ∈ ps, Percent.Spells p.1 p.2 := by
    have hself : ∀ {c : Char} {t : Text} {bs : List UInt8},
        c.toNat < 0x80 ∧ c ≠ '%' ∧ c ≠ ',' ∧ c ≠ ']' → Percent.Spells t bs →
          Percent.Spells (c :: t) (c.toNat.toUInt8 :: bs) :=
      fun h ht => .itself h.1 h.2.1 h.2.2.1 h.2.2.2 ht
    simp only [ps, List.forall_mem_cons]
    refine ⟨?_, ?_, .nil, ?_, by simp⟩
    · exact .escaped (by decide) (by decide) (hself (by decide) .nil)
    · exact hself (by decide) (hself (by decide) (hself (by decide) (hself (by decide)
        (hself (by decide) .nil))))
    · exact .escaped (by decide) (by decide) (.escaped (by decide) (by decide)
        (.escaped (by decide) (by decide) .nil))
  obtain ⟨d, hd, -, hlength, hexecute⟩ := sends_as_spelled.2 ps (by decide) hs
  exact ⟨hs, d, hd, hlength, (hexecute { peer := [] } none rfl rfl).2.1⟩

end Directive
end ScriptedServer
