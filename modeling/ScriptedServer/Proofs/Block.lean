import Mathlib.Data.List.TakeWhile
import ScriptedServer.Directive

/-!
Where the block of a directive stands in a text. The search for the marker and for the bracket behind
it is a search in lists of any kind (`enclosed?`), since the same search is made in bytes. Main
statement: it finds the one way to cut a list in front of the first marker and at the first bracket
behind it (`enclosed?_eq_some_iff`). The marker has no end that is also a beginning of it, so an
occurrence never begins inside another, and one that stands in `pre ++ marker` begins in `pre` only if
all of it does.
-/

namespace ScriptedServer

section Search

variable {α : Type} {marker pre rest xs ys : List α} {stop : α}

/-- Whether no end of a marker is also a beginning of it. -/
def Borderless (marker : List α) : Prop :=
  ∀ k < marker.length, 0 < k → ¬ marker.drop k <+: marker

/-- An occurrence of a marker that begins in front of another stands there as a whole. -/
theorem Borderless.infix_of_prefix (hb : Borderless marker) (hpre : pre ≠ [])
    (h : marker <+: pre ++ marker ++ rest) : marker <:+: pre := by
  rw [List.append_assoc] at h
  have hfront : pre <+: pre ++ (marker ++ rest) := List.prefix_append _ _
  rcases Nat.lt_or_ge pre.length marker.length with hlt | hge
  · -- otherwise the marker begins in its own middle
    obtain ⟨tail, rfl⟩ := List.prefix_of_prefix_length_le hfront h (Nat.le_of_lt hlt)
    have htail : tail <+: pre ++ tail := by
      rw [List.append_assoc, List.prefix_append_right_inj] at h
      refine List.prefix_of_prefix_length_le h ?_ ?_
      · rw [← List.append_assoc]
        exact List.prefix_append _ _
      · rw [List.length_append]
        omega
    have hborder := hb pre.length hlt (List.length_pos_iff.2 hpre)
    rw [List.drop_left] at hborder
    exact absurd htail hborder
  · exact (List.prefix_of_prefix_length_le h hfront hge).isInfix

variable [DecidableEq α]

instance (marker : List α) : Decidable (Borderless marker) :=
  inferInstanceAs (Decidable (∀ k < marker.length, 0 < k → ¬ marker.drop k <+: marker))

/-- What stands behind the first occurrence of a marker. -/
def behind? (marker : List α) : List α → Option (List α)
  | [] => none
  | x :: xs =>
    if marker <+: x :: xs then some ((x :: xs).drop marker.length) else behind? marker xs

/-- What stands in front of the first `stop`, if there is one. -/
def upTo? (stop : α) (xs : List α) : Option (List α) :=
  if stop ∈ xs then some (xs.takeWhile (· ≠ stop)) else none

/-- What stands between the first occurrence of a marker and the first `stop` behind it. -/
def enclosed? (marker : List α) (stop : α) (xs : List α) : Option (List α) :=
  (behind? marker xs).bind (upTo? stop)

/-- What is behind the first occurrence of a marker is behind an occurrence in front of which there is
no other. -/
theorem behind?_eq_some_iff (hne : marker ≠ []) (hb : Borderless marker) :
    behind? marker xs = some rest ↔ ∃ pre, xs = pre ++ marker ++ rest ∧ ¬ marker <:+: pre := by
  have hnil : ¬ marker <:+: [] := fun h => hne (List.infix_nil.1 h)
  induction xs with
  | nil =>
    simp only [behind?, reduceCtorEq, false_iff]
    rintro ⟨pre, hx, -⟩
    simp [hne] at hx
  | cons x xs ih =>
    rw [behind?]
    split
    · rename_i hp
      constructor
      · rintro ⟨⟩
        exact ⟨[], (List.prefix_iff_eq_append.1 hp).symm, hnil⟩
      · rintro ⟨pre, hx, hpre⟩
        cases pre with
        | nil => simp [hx]
        | cons c pre =>
          rw [hx] at hp
          exact absurd (hb.infix_of_prefix (List.cons_ne_nil c pre) hp) hpre
    · rename_i hp
      refine ih.trans ⟨?_, ?_⟩
      · rintro ⟨pre, rfl, hpre⟩
        refine ⟨x :: pre, rfl, fun h => ?_⟩
        rcases List.infix_cons_iff.1 h with h | h
        · exact hp (h.trans ⟨marker ++ rest, by simp⟩)
        · exact hpre h
      · rintro ⟨pre, hx, hpre⟩
        cases pre with
        | nil => exact absurd ⟨rest, hx.symm⟩ hp
        | cons c pre =>
          obtain ⟨rfl, hxs⟩ := List.cons.inj hx
          exact ⟨pre, hxs, fun h => hpre (List.infix_cons_iff.2 (.inr h))⟩

/-! ### Cutting at the first of a kind -/

theorem ne_stop_of_not_mem (h : stop ∉ ys) : ∀ a ∈ ys, decide (a ≠ stop) = true := by
  intro a ha
  refine decide_eq_true ?_
  rintro rfl
  exact h ha

theorem takeWhile_of_not_mem (h : stop ∉ ys) : ys.takeWhile (· ≠ stop) = ys :=
  List.takeWhile_eq_self_iff.2 (ne_stop_of_not_mem h)

theorem dropWhile_of_not_mem (h : stop ∉ ys) : ys.dropWhile (· ≠ stop) = [] :=
  List.dropWhile_eq_nil_iff.2 (ne_stop_of_not_mem h)

theorem takeWhile_append_stop (h : stop ∉ ys) (rest : List α) :
    (ys ++ stop :: rest).takeWhile (· ≠ stop) = ys := by
  rw [List.takeWhile_append_of_pos (ne_stop_of_not_mem h), List.takeWhile_cons_of_neg (by simp),
    List.append_nil]

theorem dropWhile_append_stop (h : stop ∉ ys) (rest : List α) :
    (ys ++ stop :: rest).dropWhile (· ≠ stop) = stop :: rest := by
  rw [List.dropWhile_append_of_pos (ne_stop_of_not_mem h), List.dropWhile_cons_of_neg (by simp)]

/-- No piece of a list that is cut at each `stop` contains one. -/
theorem not_mem_of_mem_splitOn (h : ys ∈ xs.splitOn stop) : stop ∉ ys := by
  induction xs generalizing ys with
  | nil => simp_all
  | cons x xs ih =>
    rw [List.splitOn_cons_eq_if_modifyHead] at h
    split at h
    · rcases List.mem_cons.1 h with rfl | h
      · simp
      · exact ih h
    · rename_i hx
      obtain ⟨p, ps, hsplit⟩ := List.exists_cons_of_ne_nil (List.splitOn_ne_nil stop xs)
      rw [hsplit, List.modifyHead_cons] at h
      rcases List.mem_cons.1 h with rfl | h
      · have hp : stop ∉ p := ih (by rw [hsplit]; simp)
        rw [List.mem_cons, not_or]
        exact ⟨fun he => hx (by simp [he]), hp⟩
      · exact ih (by rw [hsplit]; exact .tail p h)

/-! ### Searching -/

theorem upTo?_eq_some_iff :
    upTo? stop xs = some ys ↔ ∃ zs, xs = ys ++ stop :: zs ∧ stop ∉ ys := by
  rw [upTo?]
  constructor
  · intro h
    obtain ⟨hm, ⟨⟩⟩ := Option.ite_none_right_eq_some.1 h
    obtain ⟨front, zs, rfl, hfront⟩ := List.eq_append_cons_of_mem hm
    rw [takeWhile_append_stop hfront]
    exact ⟨zs, rfl, hfront⟩
  · rintro ⟨zs, rfl, hys⟩
    rw [if_pos (by simp), takeWhile_append_stop hys]

/-- What is enclosed stands behind the first marker and in front of the first stop behind that. -/
theorem enclosed?_eq_some_iff (hne : marker ≠ []) (hb : Borderless marker) :
    enclosed? marker stop xs = some ys ↔
      ∃ pre post, xs = pre ++ marker ++ (ys ++ stop :: post) ∧ ¬ marker <:+: pre ∧ stop ∉ ys := by
  simp only [enclosed?, Option.bind_eq_some_iff, behind?_eq_some_iff hne hb, upTo?_eq_some_iff]
  constructor
  · rintro ⟨rest, ⟨pre, hx, hpre⟩, post, rfl, hys⟩
    exact ⟨pre, post, hx, hpre, hys⟩
  · rintro ⟨pre, post, hx, hpre, hys⟩
    exact ⟨ys ++ stop :: post, ⟨pre, hx, hpre⟩, post, rfl, hys⟩

/-- Behind any occurrence of a marker there is nothing that is not behind the first one. -/
theorem behind?_append (marker pre : List α) (h : stop ∈ rest) :
    ∃ rest', behind? marker (pre ++ (marker ++ rest)) = some rest' ∧ stop ∈ rest' := by
  induction pre with
  | nil =>
    obtain ⟨x, xs, hx⟩ := List.exists_cons_of_ne_nil (List.ne_nil_of_mem (List.mem_append_right marker h))
    refine ⟨rest, ?_, h⟩
    rw [List.nil_append, hx, behind?, ← hx, if_pos (List.prefix_append marker rest), List.drop_left]
  | cons c pre ih =>
    rw [List.cons_append, behind?]
    split
    · refine ⟨_, rfl, ?_⟩
      have hle : marker.length ≤ (c :: (pre ++ marker)).length := by simp; omega
      rw [← List.append_assoc, ← List.cons_append, List.drop_append_of_le_length hle]
      exact List.mem_append_right _ h
    · exact ih

/-- Something is enclosed as soon as there is a stop behind any occurrence of the marker. -/
theorem enclosed?_eq_none_iff (hne : marker ≠ []) (hb : Borderless marker) :
    enclosed? marker stop xs = none ↔
      ∀ pre ys post, xs ≠ pre ++ marker ++ (ys ++ stop :: post) := by
  constructor
  · rintro h pre ys post rfl
    have hstop : stop ∈ ys ++ stop :: post := by simp
    obtain ⟨rest, hrest, hm⟩ := behind?_append marker pre hstop
    rw [List.append_assoc, enclosed?, hrest, Option.bind_some, upTo?, if_pos hm] at h
    cases h
  · intro h
    rw [Option.eq_none_iff_forall_ne_some]
    intro ys hys
    obtain ⟨pre, post, hx, -⟩ := (enclosed?_eq_some_iff hne hb).1 hys
    exact h pre ys post hx

end Search

namespace Directive

/-- The marker in front of a block. -/
def marker : Text := "ACT[".toList

theorem marker_ne_nil : marker ≠ [] := by decide

theorem marker_borderless : Borderless marker := by decide

theorem afterMarker?_eq_behind? (t : Text) : afterMarker? t = behind? marker t := by
  fun_induction afterMarker? t with
  | case1 rest => rfl
  | case2 c rest hne ih =>
    rw [ih, behind?, if_neg]
    rintro ⟨tail, htail⟩
    obtain ⟨rfl, hrest⟩ := List.cons.inj htail
    exact hne tail rfl hrest.symm
  | case3 => rfl

/-- The text between the brackets of a block is what the marker and the first `]` enclose. -/
theorem body?_eq_enclosed? (t : Text) : body? t = enclosed? marker ']' t := by
  rw [body?, enclosed?, afterMarker?_eq_behind?]
  cases behind? marker t <;> rfl

theorem body?_eq_some_iff {t body : Text} : body? t = some body ↔
    ∃ pre post, t = pre ++ marker ++ (body ++ ']' :: post) ∧ ¬ marker <:+: pre ∧ ']' ∉ body := by
  rw [body?_eq_enclosed?, enclosed?_eq_some_iff marker_ne_nil marker_borderless]

/-- A text carries no directive exactly if no `]` stands behind a marker in it. -/
theorem ofText?_eq_none_iff {t : Text} : ofText? t = none ↔
    ∀ pre body post, t ≠ pre ++ marker ++ (body ++ ']' :: post) := by
  rw [ofText?, Option.map_eq_none_iff, body?_eq_enclosed?,
    enclosed?_eq_none_iff marker_ne_nil marker_borderless]

end Directive

/-! ### Pieces between separators -/

/-- The pieces of a text between separators are those that the library cuts a list into. -/
theorem Text.split_eq_splitOn (sep : Char) (t : Text) : Text.split sep t = t.splitOn sep := by
  induction t with
  | nil => rfl
  | cons c t ih =>
    rw [List.splitOn_cons_eq_if_modifyHead, ← ih]
    by_cases hc : c = sep
    · rw [hc, Text.split_cons_sep, if_pos (beq_self_eq_true sep)]
    · obtain ⟨piece, pieces, hsplit, hcons⟩ := Text.split_cons_of_ne hc t
      rw [hcons, hsplit, if_neg (by simpa using hc)]
      rfl

theorem Action.ofToken_of_not_mem {name : Text} (h : '=' ∉ name) : ofToken name = ⟨name, none⟩ := by
  rw [ofToken, takeWhile_of_not_mem h, dropWhile_of_not_mem h]
  rfl

theorem Action.ofToken_append {name : Text} (h : '=' ∉ name) (p : Text) :
    ofToken (name ++ '=' :: p) = ⟨name, some p⟩ := by
  rw [ofToken, takeWhile_append_stop h, dropWhile_append_stop h]
  rfl

end ScriptedServer
