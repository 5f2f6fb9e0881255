/-!
Text is handled as the list of its characters, so that every reader and printer is a recursion or a
fold over it. This module holds the few operations that several formats share: printing a number,
and cutting a text at each separator.
-/

namespace ScriptedServer

/-- Text, as the list of its characters. -/
abbrev Text := List Char

namespace Text

/-- A natural number in decimal, without leading zeros. -/
def ofNat (n : Nat) : Text := Nat.toDigits 10 n

/-- An integer in decimal, with a minus sign in front of a negative one. -/
def ofInt : Int → Text
  | .ofNat n => ofNat n
  | .negSucc n => '-' :: ofNat (n + 1)

/-- A number in lower-case hexadecimal, padded with zeros to at least `width` digits. -/
def ofHex (width n : Nat) : Text :=
  let digits := Nat.toDigits 16 n
  List.replicate (width - digits.length) '0' ++ digits

/-- One character in front of the pieces of a text: a separator opens a new, empty piece. -/
def splitStep (sep c : Char) (pieces : Text × List Text) : Text × List Text :=
  if c = sep then ([], pieces.1 :: pieces.2) else (c :: pieces.1, pieces.2)

/-- The pieces of a text between separators: always one more than it has separators. -/
def split (sep : Char) (t : Text) : List Text :=
  let pieces := t.foldr (splitStep sep) ([], [])
  pieces.1 :: pieces.2

/-! ### Laws of `split` -/

theorem split_nil (sep : Char) : split sep [] = [[]] := rfl

/-- A separator in front adds an empty piece in front. -/
theorem split_cons_sep (sep : Char) (t : Text) : split sep (sep :: t) = [] :: split sep t := by
  simp [split, splitStep]

/-- Any other character goes to the first piece. -/
theorem split_cons_of_ne {sep c : Char} (h : c ≠ sep) (t : Text) :
    ∃ piece pieces, split sep t = piece :: pieces ∧ split sep (c :: t) = (c :: piece) :: pieces :=
  ⟨_, _, rfl, by simp [split, splitStep, h]⟩

end Text
end ScriptedServer
