import Mathlib.Algebra.Group.Nat.Defs
import ScriptedServer.Text.Utf8

/-!
What replacement decoding does with ASCII, and with bytes that were encoded. Whatever a byte of ASCII
stands behind, it closes an unfinished character and then stands for itself, and no other byte ever
comes out as a character of ASCII. So the places where such a character stands in a decoded text are
exactly the places of its byte (`decode_eq_append_cons_iff`), and the text may be cut there before or
after decoding. Bytes that encode a text are decoded to that text (`decode_encode`).
-/

namespace ScriptedServer.Utf8

theorem toNat_ofNat {n : Nat} (h : n.isValidChar) : (Char.ofNat n).toNat = n := by
  rw [Char.ofNat, dif_pos h]
  rfl

/-! ### States inside a character -/

/-- What may come of a state inside a character lies outside ASCII and is a character: the least and
the greatest code are those that the least and the greatest bytes lead to. -/
structure Pending (owed code low high : Nat) : Prop where
  owes : owed = 1 ∨ owed = 2 ∨ owed = 3
  continues : 0x80 ≤ low
  beyondAscii : 0x80 ≤ (code * 64 + (low - 0x80)) * 64 ^ (owed - 1)
  scalar : (code * 64 + (high - 0x80) + 1) * 64 ^ (owed - 1) ≤ 0xD800
    ∨ (0xE000 ≤ (code * 64 + (low - 0x80)) * 64 ^ (owed - 1)
        ∧ (code * 64 + (high - 0x80) + 1) * 64 ^ (owed - 1) ≤ 0x110000)

/-- What holds of every state that the decoder comes to. -/
def State.Sound : State → Prop
  | start => True
  | inside owed code low high => Pending owed code low high

/-- Whether characters of ASCII are shown only for the byte that stands for them. -/
def ShowsAscii (b : Nat) (shown : Text) : Prop := ∀ c ∈ shown, c.toNat < 0x80 → c.toNat = b

theorem showsAscii_nil (b : Nat) : ShowsAscii b [] := nofun

theorem showsAscii_cons {b : Nat} {c : Char} {t : Text} (hc : c.toNat < 0x80 → c.toNat = b)
    (h : ShowsAscii b t) : ShowsAscii b (c :: t) := List.forall_mem_cons.2 ⟨hc, h⟩

theorem showsAscii_replacement {b : Nat} {t : Text} (h : ShowsAscii b t) :
    ShowsAscii b (replacement :: t) :=
  showsAscii_cons (fun hlt => absurd hlt (by decide)) h

theorem lead_sound (b : Nat) : ShowsAscii b (lead b).1 ∧ (lead b).2.Sound := by
  unfold lead
  repeat' split
  · exact ⟨showsAscii_cons (fun _ => toNat_ofNat (.inl (by omega))) (showsAscii_nil b), trivial⟩
  · exact ⟨showsAscii_nil b, .inl rfl, by omega, by omega, .inl (by omega)⟩
  · exact ⟨showsAscii_nil b, .inr (.inl rfl), by omega, by omega, .inl (by omega)⟩
  · exact ⟨showsAscii_nil b, .inr (.inl rfl), by omega, by omega, .inl (by omega)⟩
  · exact ⟨showsAscii_nil b, .inr (.inl rfl), by omega, by omega, by omega⟩
  · exact ⟨showsAscii_nil b, .inr (.inr rfl), by omega, by omega, .inr (by omega)⟩
  · exact ⟨showsAscii_nil b, .inr (.inr rfl), by omega, by omega, .inr (by omega)⟩
  · exact ⟨showsAscii_nil b, .inr (.inr rfl), by omega, by omega, .inr (by omega)⟩
  · exact ⟨showsAscii_replacement (showsAscii_nil b), trivial⟩

/-- A byte that the state waits for ends the character or leaves less of it to wait for. -/
theorem Pending.step {owed code low high b : Nat} (h : Pending owed code low high)
    (hb : low ≤ b ∧ b ≤ high) :
    (owed ≤ 1 → (code * 64 + (b - 0x80)).isValidChar ∧ 0x80 ≤ code * 64 + (b - 0x80))
      ∧ (¬ owed ≤ 1 → Pending (owed - 1) (code * 64 + (b - 0x80)) 0x80 0xBF) := by
  obtain ⟨howes, -, hleast, hscalar⟩ := h
  have hfrom : low - 0x80 ≤ b - 0x80 := Nat.sub_le_sub_right hb.1 _
  have hto : b - 0x80 ≤ high - 0x80 := Nat.sub_le_sub_right hb.2 _
  generalize low - 0x80 = least at *
  generalize high - 0x80 = greatest at *
  generalize b - 0x80 = bits at *
  rcases howes with rfl | rfl | rfl
  · refine ⟨fun _ => ⟨?_, by omega⟩, fun h => absurd (Nat.le_refl 1) h⟩
    show _ < 55296 ∨ 57343 < _ ∧ _ < 1114112
    omega
  · exact ⟨by omega, fun _ => ⟨.inl rfl, Nat.le_refl _, by grind, by grind⟩⟩
  · exact ⟨by omega, fun _ => ⟨.inr (.inl rfl), Nat.le_refl _, by grind, by grind⟩⟩

/-- One byte shows a character of ASCII only if it stands for it, and leaves a sound state. -/
theorem step_sound {s : State} (h : s.Sound) (b : Nat) :
    ShowsAscii b (step s b).1 ∧ (step s b).2.Sound := by
  cases s with
  | start => exact lead_sound b
  | inside owed code low high =>
    rw [step]
    split
    · rename_i hb
      obtain ⟨hlast, hmore⟩ := Pending.step h hb
      split
      · rename_i howed
        obtain ⟨hvalid, hbeyond⟩ := hlast howed
        refine ⟨showsAscii_cons (fun hlt => ?_) (showsAscii_nil b), trivial⟩
        rw [toNat_ofNat hvalid] at hlt
        omega
      · rename_i howed
        exact ⟨showsAscii_nil b, hmore howed⟩
    · exact ⟨showsAscii_replacement (lead_sound b).1, (lead_sound b).2⟩

theorem flush_beyond_ascii (s : State) : ∀ c ∈ flush s, 0x80 ≤ c.toNat := by
  cases s with
  | start => exact nofun
  | inside => simp [flush, replacement]

/-! ### Bytes of ASCII -/

/-- A byte of ASCII closes an unfinished character, and then stands for itself. -/
theorem step_ascii {s : State} (h : s.Sound) {b : Nat} (hb : b < 0x80) :
    step s b = (flush s ++ [Char.ofNat b], .start) := by
  have hlead : lead b = ([Char.ofNat b], .start) := if_pos hb
  cases s with
  | start => exact hlead
  | inside owed code low high =>
    have hlow : 0x80 ≤ low := Pending.continues h
    rw [step, if_neg (by omega), hlead]
    rfl

/-- The decoder from a state on, and what it has shown and come to behind some bytes. -/
theorem feed_sound {s : State} (h : s.Sound) (bs : List UInt8) : (decoder.feed s bs).2.Sound := by
  induction bs generalizing s with
  | nil => exact h
  | cons b bs ih => exact ih (step_sound h b.toNat).2

theorem runFrom_eq_feed (s : State) (bs : List UInt8) :
    decoder.runFrom s bs = (decoder.feed s bs).1 ++ flush (decoder.feed s bs).2 := by
  have h := decoder.runFrom_append s bs []
  rwa [List.append_nil] at h

/-- Decoding begins anew behind a byte of ASCII, whatever stands in front of it. -/
theorem decode_append_cons (xs ys : List UInt8) {b : UInt8} (hb : b.toNat < 0x80) :
    decode (xs ++ b :: ys) = decode xs ++ Char.ofNat b.toNat :: decode ys := by
  have hs : (decoder.feed .start xs).2.Sound := feed_sound (s := .start) trivial xs
  have hstep : decoder.step (decoder.feed .start xs).2 b
      = (flush (decoder.feed .start xs).2 ++ [Char.ofNat b.toNat], .start) := step_ascii hs hb
  rw [decode, decode, decode, Transducer.run_eq, Transducer.run_eq, Transducer.run_eq]
  calc decoder.runFrom .start (xs ++ b :: ys)
      = (decoder.feed .start xs).1 ++ decoder.runFrom (decoder.feed .start xs).2 (b :: ys) :=
        decoder.runFrom_append .start xs (b :: ys)
    _ = (decoder.feed .start xs).1
          ++ (flush (decoder.feed .start xs).2 ++ [Char.ofNat b.toNat]
            ++ decoder.runFrom .start ys) := by
        rw [Transducer.runFrom, hstep]
    _ = decoder.runFrom .start xs ++ Char.ofNat b.toNat :: decoder.runFrom .start ys := by
        rw [runFrom_eq_feed .start xs]
        simp

/-- Bytes outside ASCII are decoded to characters outside ASCII. -/
theorem runFrom_beyond_ascii {s : State} (h : s.Sound) {bs : List UInt8}
    (hbs : ∀ b ∈ bs, 0x80 ≤ b.toNat) : ∀ c ∈ decoder.runFrom s bs, 0x80 ≤ c.toNat := by
  induction bs generalizing s with
  | nil => exact flush_beyond_ascii s
  | cons b bs ih =>
    obtain ⟨hshown, hsound⟩ := step_sound h b.toNat
    have hb := hbs b List.mem_cons_self
    refine List.forall_mem_append.2 ⟨fun c hc => ?_, ih hsound fun x hx => hbs x (.tail b hx)⟩
    by_cases hlt : c.toNat < 0x80
    · have := hshown c hc hlt
      omega
    · omega

theorem decode_beyond_ascii {bs : List UInt8} (hbs : ∀ b ∈ bs, 0x80 ≤ b.toNat) :
    ∀ c ∈ decode bs, 0x80 ≤ c.toNat := by
  rw [decode, Transducer.run_eq]
  exact runFrom_beyond_ascii (s := .start) trivial hbs

/-- Bytes that begin with none of ASCII, up to the first that is of ASCII. -/
theorem ascii_cases (bs : List UInt8) : (∀ b ∈ bs, 0x80 ≤ b.toNat) ∨
    ∃ xs b ys, bs = xs ++ b :: ys ∧ b.toNat < 0x80 ∧ ∀ x ∈ xs, 0x80 ≤ x.toNat := by
  induction bs with
  | nil => exact .inl nofun
  | cons b bs ih =>
    by_cases hb : b.toNat < 0x80
    · exact .inr ⟨[], b, bs, rfl, hb, nofun⟩
    · rcases ih with h | ⟨xs, a, ys, rfl, ha, hxs⟩
      · exact .inl (List.forall_mem_cons.2 ⟨by omega, h⟩)
      · exact .inr ⟨b :: xs, a, ys, rfl, ha, List.forall_mem_cons.2 ⟨by omega, hxs⟩⟩

theorem byte_eq {a b : UInt8} (ha : a.toNat < 0x80) (hb : b.toNat < 0x80)
    (h : Char.ofNat a.toNat = Char.ofNat b.toNat) : a = b := by
  have hn := congrArg Char.toNat h
  rw [toNat_ofNat (.inl (by omega)), toNat_ofNat (.inl (by omega))] at hn
  exact UInt8.toNat_inj.1 hn

/-- A decoded text holds a character of ASCII where the bytes hold its byte, and nowhere else. -/
theorem decode_eq_append_cons_iff {bs : List UInt8} {u v : Text} {b : UInt8}
    (hb : b.toNat < 0x80) : decode bs = u ++ Char.ofNat b.toNat :: v ↔
      ∃ xs ys, bs = xs ++ b :: ys ∧ decode xs = u ∧ decode ys = v := by
  constructor
  · intro h
    -- the bytes up to the first of ASCII show nothing of ASCII: the character is that one or a later
    induction hn : bs.length using Nat.strongRecOn generalizing bs u with
    | ind n ih =>
      subst hn
      have hc : (Char.ofNat b.toNat).toNat < 0x80 := by rwa [toNat_ofNat (.inl (by omega))]
      rcases ascii_cases bs with hnone | ⟨xs, a, ys, rfl, ha, hxs⟩
      · have := decode_beyond_ascii hnone (Char.ofNat b.toNat) (by rw [h]; simp)
        omega
      · have hquiet := decode_beyond_ascii hxs
        rw [decode_append_cons xs ys ha] at h
        rcases List.append_eq_append_iff.1 h with ⟨mid, rfl, hmid⟩ | ⟨mid, hmid, hv⟩
        · cases mid with
          | nil =>
            obtain ⟨hab, hys⟩ := List.cons.inj hmid
            obtain rfl := byte_eq ha hb hab
            exact ⟨xs, ys, rfl, by simp, hys⟩
          | cons c mid =>
            obtain ⟨rfl, hys⟩ := List.cons.inj hmid
            obtain ⟨xs', ys', rfl, hxs', hys'⟩ := ih ys.length (by simp; omega) hys rfl
            refine ⟨xs ++ a :: xs', ys', by simp, ?_, hys'⟩
            rw [decode_append_cons xs xs' ha, hxs']
        · cases mid with
          | nil =>
            obtain ⟨hab, hys⟩ := List.cons.inj hv
            obtain rfl := byte_eq ha hb hab.symm
            exact ⟨xs, ys, rfl, by simpa using hmid, hys.symm⟩
          | cons c mid =>
            obtain ⟨rfl, -⟩ := List.cons.inj hv
            have := hquiet (Char.ofNat b.toNat) (by rw [hmid]; simp)
            omega
  · rintro ⟨xs, ys, rfl, rfl, rfl⟩
    exact decode_append_cons xs ys hb

/-- Bytes hold a byte of ASCII exactly if their text holds its character. -/
theorem mem_decode_iff {bs : List UInt8} {b : UInt8} (hb : b.toNat < 0x80) :
    Char.ofNat b.toNat ∈ decode bs ↔ b ∈ bs := by
  constructor
  · intro h
    obtain ⟨u, v, he⟩ := List.append_of_mem h
    obtain ⟨xs, ys, rfl, -, -⟩ := (decode_eq_append_cons_iff hb).1 he
    simp
  · intro h
    obtain ⟨xs, ys, rfl⟩ := List.append_of_mem h
    rw [decode_append_cons xs ys hb]
    simp

/-! ### Bytes that show nothing -/

theorem lead_shows (b : Nat) : (lead b).1 = [] → (lead b).2 ≠ .start := by
  unfold lead
  repeat' split
  all_goals simp

/-- A byte that shows nothing leaves the decoder inside a character. -/
theorem step_shows (s : State) (b : Nat) : (step s b).1 = [] → (step s b).2 ≠ .start := by
  cases s with
  | start => exact lead_shows b
  | inside owed code low high =>
    rw [step]
    repeat' split
    all_goals simp

theorem runFrom_eq_nil {s : State} {bs : List UInt8} (h : decoder.runFrom s bs = []) :
    s = .start ∧ bs = [] := by
  induction bs generalizing s with
  | nil =>
    cases s with
    | start => exact ⟨rfl, rfl⟩
    | inside => cases h
  | cons b bs ih =>
    obtain ⟨hshown, hrest⟩ := List.append_eq_nil_iff.1 h
    exact absurd (ih hrest).1 (step_shows s b.toNat hshown)

/-- Only no bytes at all are decoded to no text. -/
theorem decode_eq_nil_iff {bs : List UInt8} : decode bs = [] ↔ bs = [] := by
  rw [decode, Transducer.run_eq]
  exact ⟨fun h => (runFrom_eq_nil h).2, fun h => by rw [h]; rfl⟩

/-! ### Encoded text -/

theorem toNat_toUInt8 {n : Nat} (h : n < 256) : n.toUInt8.toNat = n := by
  simp [Nat.toUInt8, Nat.mod_eq_of_lt h]

/-- The first byte of a character of two bytes, and of three and of four: the range of the next byte
leaves out what a shorter character says, the surrogates, and what is too large. -/
theorem step_two : ∀ k < 32, 2 ≤ k → step .start (0xC0 + k) = ([], .inside 1 k 0x80 0xBF) := by
  decide

theorem step_three : ∀ k < 16, step .start (0xE0 + k)
    = ([], .inside 2 k (if k = 0 then 0xA0 else 0x80) (if k = 13 then 0x9F else 0xBF)) := by decide

theorem step_four : ∀ k < 5, step .start (0xF0 + k)
    = ([], .inside 3 k (if k = 0 then 0x90 else 0x80) (if k = 4 then 0x8F else 0xBF)) := by decide

theorem step_more {owed code low high bits : Nat} (ho : 1 < owed) (hl : low ≤ 0x80 + bits)
    (hh : 0x80 + bits ≤ high) : step (.inside owed code low high) (0x80 + bits)
      = ([], .inside (owed - 1) (code * 64 + bits) 0x80 0xBF) := by
  rw [step, if_pos ⟨hl, hh⟩, if_neg (Nat.not_le.2 ho), Nat.add_sub_cancel_left]

theorem step_last {code low high bits : Nat} (hl : low ≤ 0x80 + bits) (hh : 0x80 + bits ≤ high) :
    step (.inside 1 code low high) (0x80 + bits) = ([Char.ofNat (code * 64 + bits)], .start) := by
  rw [step, if_pos ⟨hl, hh⟩, if_pos (Nat.le_refl 1), Nat.add_sub_cancel_left]

theorem feed_cons {s s' : State} {n : Nat} {shown : Text} (hn : n < 256)
    (h : step s n = (shown, s')) (bs : List UInt8) :
    decoder.feed s (n.toUInt8 :: bs)
      = (shown ++ (decoder.feed s' bs).1, (decoder.feed s' bs).2) := by
  have hstep : decoder.step s n.toUInt8 = (shown, s') := by
    show step s n.toUInt8.toNat = _
    rw [toNat_toUInt8 hn, h]
  rw [Transducer.feed, hstep]

/-- The bytes of a character are decoded to it, and nothing is held back. -/
theorem feed_encodeChar (c : Char) : decoder.feed .start (encodeChar c) = ([c], .start) := by
  have hvalid : c.toNat < 0xD800 ∨ 0xDFFF < c.toNat ∧ c.toNat < 0x110000 := c.valid
  have hc : Char.ofNat c.toNat = c := Char.ofNat_toNat c
  simp only [encodeChar]
  generalize c.toNat = n at *
  split
  · rename_i h
    rw [feed_cons (by omega) (step_ascii (s := .start) trivial h), hc]
    rfl
  · split
    · have hn : n / 64 * 64 + n % 64 = n := Nat.div_add_mod' n 64
      rw [feed_cons (by omega) (step_two (n / 64) (by omega) (by omega)),
        feed_cons (by omega) (step_last (by omega) (by omega)), hn, hc]
      rfl
    · split
      · have hn : (n / 4096 * 64 + n / 64 % 64) * 64 + n % 64 = n := by omega
        rw [feed_cons (by omega) (step_three (n / 4096) (by omega)),
          feed_cons (by omega) (step_more (by omega) (by split <;> omega) (by split <;> omega)),
          feed_cons (by omega) (step_last (by omega) (by omega)), hn, hc]
        rfl
      · have hn : ((n / 262144 * 64 + n / 4096 % 64) * 64 + n / 64 % 64) * 64 + n % 64 = n := by
          omega
        rw [feed_cons (by omega) (step_four (n / 262144) (by omega)),
          feed_cons (by omega) (step_more (by omega) (by split <;> omega) (by split <;> omega)),
          feed_cons (by omega) (step_more (by omega) (by omega) (by omega)),
          feed_cons (by omega) (step_last (by omega) (by omega)), hn, hc]
        rfl

/-- Encoded text is decoded to itself, and what comes behind it is decoded anew. -/
theorem decode_encode_append (t : Text) (bs : List UInt8) :
    decode (encode t ++ bs) = t ++ decode bs := by
  rw [decode, decode, Transducer.run_eq, Transducer.run_eq]
  show decoder.runFrom .start _ = _ ++ decoder.runFrom .start bs
  induction t with
  | nil => rfl
  | cons c t ih =>
    rw [encode, List.flatMap_cons, List.append_assoc, Transducer.runFrom_append, feed_encodeChar]
    exact congrArg (c :: ·) ih

theorem decode_encode (t : Text) : decode (encode t) = t := by
  have h := decode_encode_append t []
  rw [List.append_nil] at h
  rw [h, show decode [] = [] from rfl, List.append_nil]

end ScriptedServer.Utf8
