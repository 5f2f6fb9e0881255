import ScriptedServer.Proofs.Block
import ScriptedServer.Proofs.Decoding

/-!
Reading a directive off bytes that are not yet decoded. All that a request is cut at is ASCII, so it may
be cut as it comes in, in bytes, and each name and each parameter be decoded by itself. What carries over
from the bytes to the text is the place of every word of ASCII (`decode_eq_append_word_iff`), and with it
the search for a block, the cut at the commas and the cut at the first equals sign.
-/

namespace ScriptedServer

/-! ### Cutting bytes -/

/-- An action whose name and parameter are not yet decoded. -/
structure RawAction where
  name : List UInt8
  param : Option (List UInt8) := none
  deriving DecidableEq

namespace RawAction

/-- The entry that bytes write, cut at their first equals sign. -/
def ofToken (token : List UInt8) : RawAction where
  name := token.takeWhile (· ≠ 0x3D)
  param := (token.dropWhile (· ≠ 0x3D)).tail?

/-- The action, with its name and its parameter decoded each by itself. -/
def decode (a : RawAction) : Action where
  name := Utf8.decode a.name
  param := a.param.map Utf8.decode

end RawAction

namespace RawDirective

/-- The bytes of the marker in front of a block. -/
def marker : List UInt8 := [0x41, 0x43, 0x54, 0x5B]

/-- The actions of a block, from the bytes between its brackets, cut at the commas. -/
def ofBody (body : List UInt8) : List RawAction :=
  if body = [] then [] else (body.splitOn 0x2C).map RawAction.ofToken

/-- The directive that bytes carry, from the first marker to the first bracket behind it. -/
def ofBytes? (bs : List UInt8) : Option (List RawAction) :=
  (enclosed? marker 0x5D bs).map ofBody

theorem marker_ne_nil : marker ≠ [] := by decide

theorem marker_borderless : Borderless marker := by decide

theorem marker_ascii : ∀ b ∈ marker, b.toNat < 0x80 := by simp [marker]

end RawDirective

/-! ### Words of ASCII in bytes and in their text -/

namespace Utf8

/-- The text of bytes of ASCII. -/
def ascii (word : List UInt8) : Text := word.map fun b => Char.ofNat b.toNat

/-- A word of ASCII stands in a decoded text where it stands in the bytes, and nowhere else; what is
around it is decoded as if it stood alone. -/
theorem decode_eq_append_word_iff {word bs : List UInt8} {u v : Text} (hne : word ≠ [])
    (hw : ∀ b ∈ word, b.toNat < 0x80) : decode bs = u ++ ascii word ++ v ↔
      ∃ xs ys, bs = xs ++ word ++ ys ∧ decode xs = u ∧ decode ys = v := by
  induction word generalizing bs u with
  | nil => exact absurd rfl hne
  | cons b word ih =>
    obtain ⟨hb, hword⟩ := List.forall_mem_cons.1 hw
    cases word with
    | nil => simpa [ascii] using decode_eq_append_cons_iff hb
    | cons b' word =>
      have hsplit : u ++ ascii (b :: b' :: word) ++ v
          = u ++ Char.ofNat b.toNat :: ([] ++ ascii (b' :: word) ++ v) := by
        simp [ascii]
      rw [hsplit, decode_eq_append_cons_iff hb]
      constructor
      · rintro ⟨xs, rest, rfl, hxs, hrest⟩
        obtain ⟨none, ys, rfl, hnone, hys⟩ := (ih (List.cons_ne_nil b' word) hword).1 hrest
        rw [decode_eq_nil_iff.1 hnone]
        exact ⟨xs, ys, by simp, hxs, hys⟩
      · rintro ⟨xs, ys, rfl, hxs, hys⟩
        refine ⟨xs, b' :: word ++ ys, by simp, hxs, ?_⟩
        exact (ih (List.cons_ne_nil b' word) hword).2 ⟨[], ys, rfl, rfl, hys⟩

/-- A word of ASCII stands in a decoded text if and only if it stands in the bytes. -/
theorem ascii_infix_decode_iff {word bs : List UInt8} (hne : word ≠ [])
    (hw : ∀ b ∈ word, b.toNat < 0x80) : ascii word <:+: decode bs ↔ word <:+: bs := by
  constructor
  · rintro ⟨u, v, h⟩
    obtain ⟨xs, ys, rfl, -, -⟩ := (decode_eq_append_word_iff hne hw).1 h.symm
    exact ⟨xs, ys, rfl⟩
  · rintro ⟨xs, ys, rfl⟩
    exact ⟨_, _, ((decode_eq_append_word_iff hne hw).2 ⟨xs, ys, rfl, rfl, rfl⟩).symm⟩

/-! ### The three cuts -/

variable {b : UInt8}

/-- What bytes of ASCII enclose may be found before decoding. -/
theorem enclosed?_decode {marker : List UInt8} (hne : marker ≠ []) (hm : ∀ b ∈ marker, b.toNat < 0x80)
    (hborder : Borderless marker) (hborder' : Borderless (ascii marker)) (hb : b.toNat < 0x80)
    (bs : List UInt8) : enclosed? (ascii marker) (Char.ofNat b.toNat) (decode bs)
      = (enclosed? marker b bs).map decode := by
  have hne' : ascii marker ≠ [] := by simpa [ascii] using hne
  cases he : enclosed? marker b bs with
  | some body =>
    obtain ⟨pre, post, rfl, hpre, hbody⟩ := (enclosed?_eq_some_iff hne hborder).1 he
    refine (enclosed?_eq_some_iff hne' hborder').2 ⟨decode pre, decode post, ?_, ?_, ?_⟩
    · exact (decode_eq_append_word_iff hne hm).2 ⟨pre, body ++ b :: post, rfl, rfl,
        decode_append_cons body post hb⟩
    · rwa [ascii_infix_decode_iff hne hm]
    · rwa [mem_decode_iff hb]
  | none =>
    -- a block in the text would be one in the bytes
    cases ht : enclosed? (ascii marker) (Char.ofNat b.toNat) (decode bs) with
    | none => rfl
    | some t =>
      obtain ⟨u, v, hbs, hu, hstop⟩ := (enclosed?_eq_some_iff hne' hborder').1 ht
      obtain ⟨pre, rest, rfl, rfl, hrest⟩ := (decode_eq_append_word_iff hne hm).1 hbs
      obtain ⟨body, post, rfl, rfl, -⟩ := (decode_eq_append_cons_iff hb).1 hrest
      rw [ascii_infix_decode_iff hne hm] at hu
      rw [mem_decode_iff hb] at hstop
      have hsome := (enclosed?_eq_some_iff hne hborder).2 ⟨pre, post, rfl, hu, hstop⟩
      rw [he] at hsome
      cases hsome

theorem decode_intercalate (hb : b.toNat < 0x80) (ps : List (List UInt8)) :
    decode ([b].intercalate ps) = [Char.ofNat b.toNat].intercalate (ps.map decode) := by
  induction ps with
  | nil => rfl
  | cons p ps ih =>
    cases ps with
    | nil => simp
    | cons q ps =>
      rw [List.intercalate_cons_cons, List.append_assoc, List.singleton_append,
        decode_append_cons p _ hb, ih]
      simp [List.intercalate_cons_cons]

/-- The pieces between separators of ASCII may be cut before decoding. -/
theorem split_decode (hb : b.toNat < 0x80) (bs : List UInt8) :
    Text.split (Char.ofNat b.toNat) (decode bs) = (bs.splitOn b).map decode := by
  rw [Text.split_eq_splitOn]
  calc (decode bs).splitOn (Char.ofNat b.toNat)
      = ([Char.ofNat b.toNat].intercalate ((bs.splitOn b).map decode)).splitOn
          (Char.ofNat b.toNat) := by
        rw [← decode_intercalate hb, List.intercalate_splitOn]
    _ = (bs.splitOn b).map decode := by
        refine List.splitOn_intercalate _ (List.forall_mem_map.2 fun piece hp => ?_) (by simp)
        rw [mem_decode_iff hb]
        exact not_mem_of_mem_splitOn hp

end Utf8

theorem RawAction.ofToken_of_not_mem {name : List UInt8} (h : 0x3D ∉ name) :
    ofToken name = ⟨name, none⟩ := by
  rw [ofToken, takeWhile_of_not_mem h, dropWhile_of_not_mem h]
  rfl

theorem RawAction.ofToken_append {name : List UInt8} (h : 0x3D ∉ name) (p : List UInt8) :
    ofToken (name ++ 0x3D :: p) = ⟨name, some p⟩ := by
  rw [ofToken, takeWhile_append_stop h, dropWhile_append_stop h]
  rfl

/-- A name and its parameter may be told apart before they are decoded. -/
theorem RawAction.decode_ofToken (token : List UInt8) :
    (RawAction.ofToken token).decode = Action.ofToken (Utf8.decode token) := by
  have hb : (0x3D : UInt8).toNat < 0x80 := by decide
  by_cases hm : (0x3D : UInt8) ∈ token
  · obtain ⟨name, param, rfl, hname⟩ := List.eq_append_cons_of_mem hm
    have hname' : '=' ∉ Utf8.decode name := by rwa [← Utf8.mem_decode_iff hb] at hname
    have htext : Utf8.decode (name ++ 0x3D :: param)
        = Utf8.decode name ++ '=' :: Utf8.decode param := Utf8.decode_append_cons name param hb
    rw [ofToken_append hname, htext, Action.ofToken_append hname']
    rfl
  · have hm' : '=' ∉ Utf8.decode token := by rwa [← Utf8.mem_decode_iff hb] at hm
    rw [ofToken_of_not_mem hm, Action.ofToken_of_not_mem hm']
    rfl

theorem RawDirective.decode_ofBody (body : List UInt8) :
    (RawDirective.ofBody body).map RawAction.decode = Directive.ofBody (Utf8.decode body) := by
  by_cases hbody : body = []
  · subst hbody
    rfl
  · have hne : Utf8.decode body ≠ [] := fun h => hbody (Utf8.decode_eq_nil_iff.1 h)
    have hsplit : Text.split ',' (Utf8.decode body) = (body.splitOn 0x2C).map Utf8.decode :=
      Utf8.split_decode (b := 0x2C) (by decide) body
    rw [RawDirective.ofBody, if_neg hbody, Directive.ofBody, if_neg hne, hsplit, List.map_map,
      List.map_map]
    exact List.map_congr_left fun token _ => RawAction.decode_ofToken token

/-- A directive may be read off bytes before they are decoded, and each name and parameter be decoded by
itself; and any word of ASCII stands in the decoded text exactly where it stands in the bytes. -/
theorem Directive.read_before_decoding (bs : List UInt8) :
    Directive.ofBytes? bs = (RawDirective.ofBytes? bs).map (List.map RawAction.decode)
      ∧ ∀ word, word ≠ [] → (∀ b ∈ word, b.toNat < 0x80) → ∀ u v,
          Utf8.decode bs = u ++ Utf8.ascii word ++ v ↔
            ∃ xs ys, bs = xs ++ word ++ ys ∧ Utf8.decode xs = u ∧ Utf8.decode ys = v := by
  refine ⟨?_, fun word hne hw u v => Utf8.decode_eq_append_word_iff hne hw⟩
  have hbody : Directive.body? (Utf8.decode bs)
      = (enclosed? RawDirective.marker 0x5D bs).map Utf8.decode := by
    rw [Directive.body?_eq_enclosed?]
    exact Utf8.enclosed?_decode (b := 0x5D) RawDirective.marker_ne_nil RawDirective.marker_ascii
      RawDirective.marker_borderless Directive.marker_borderless (by decide) bs
  rw [Directive.ofBytes?, Directive.ofText?, hbody, RawDirective.ofBytes?]
  simp only [Option.map_map]
  exact congrArg (Option.map · _) (funext fun body => (RawDirective.decode_ofBody body).symm)

/-- A payload with a sequence cut short in front of the marker, at the end of a name, in front of an
equals sign and behind the block. -/
theorem Directive.read_before_decoding_broken :
    let bs : List UInt8 := [0xE2, 0x82] ++ RawDirective.marker ++ [0x53, 0xF0, 0x9F, 0x2C, 0x54, 0xC3,
      0x3D, 0x3D, 0xFF, 0x5D, 0xE2]
    Directive.ofBytes? bs
        = some [⟨['S', '\uFFFD'], none⟩, ⟨['T', '\uFFFD'], some ['=', '\uFFFD']⟩]
      ∧ ∃ xs ys, bs = xs ++ RawDirective.marker ++ ys ∧ Utf8.decode xs = ['\uFFFD'] := by
  intro bs
  obtain ⟨hread, hwords⟩ := Directive.read_before_decoding bs
  have htext : Utf8.decode bs = ['\uFFFD'] ++ Utf8.ascii RawDirective.marker
      ++ ['S', '\uFFFD', ',', 'T', '\uFFFD', '=', '=', '\uFFFD', ']', '\uFFFD'] := by decide
  obtain ⟨xs, ys, hbs, hxs, -⟩ :=
    (hwords RawDirective.marker (by decide) RawDirective.marker_ascii _ _).1 htext
  refine ⟨?_, xs, ys, hbs, hxs⟩
  rw [hread]
  decide

end ScriptedServer
