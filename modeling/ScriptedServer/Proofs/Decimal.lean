import Mathlib.Data.List.Induction
import Mathlib.Data.List.TakeWhile
import ScriptedServer.Proofs.Attempt
import ScriptedServer.Settings

/-!
Which numbers are read. Zeros in front of a number in decimal do not change it, and every run of digits is
a number with zeros in front: one digit more multiplies by ten and adds, which is also how a numeral gets
its value (`Denotes.concat`, `denotes_iff`). Counts and ports are therefore read off exactly the texts that
denote them, a port with any blanks around it. `numbers_read_exactly` says so with every way not to be
read: the text is not of digits only, the port is too great, or there are more digits than are read.
-/

namespace ScriptedServer

/-! ### Numerals -/

namespace Numeral

/-- Whether a text is a number in decimal, with any number of zeros in front. -/
def Denotes (t : Text) (n : Nat) : Prop :=
  ∃ zeros, t = List.replicate zeros '0' ++ Text.ofNat n

/-- Whether a text is of the ten digits only, and not empty. -/
def Digits (t : Text) : Prop := t ≠ [] ∧ ∀ c ∈ t, c ∈ "0123456789".toList

variable {t : Text} {c : Char} {n d : Nat}

theorem isDigit_iff_digitChar : c.isDigit = true ↔ ∃ d < 10, c = Nat.digitChar d := by
  constructor
  · intro h
    have hc : 48 ≤ c.toNat ∧ c.toNat ≤ 57 := Char.isDigit_iff_toNat.1 h
    refine ⟨c.toNat - 48, by omega, Char.toNat_inj.1 ?_⟩
    rw [Nat.toNat_digitChar_of_lt_ten (by omega)]
    omega
  · rintro ⟨d, hd, rfl⟩
    have h := Nat.toNat_digitChar_of_lt_ten hd
    rw [Char.isDigit_iff_toNat, h]
    simp
    omega

theorem isDigit_iff_mem : c.isDigit = true ↔ c ∈ "0123456789".toList := by
  constructor
  · rw [isDigit_iff_digitChar]
    rintro ⟨d, hd, rfl⟩
    revert d
    decide
  · intro hc
    have hall : "0123456789".toList.all Char.isDigit = true := rfl
    exact List.all_eq_true.1 hall c hc

theorem isNumeral_iff_digits : isNumeral t = true ↔ Digits t := by
  simp only [isNumeral, Digits, Bool.and_eq_true, Bool.not_eq_true', List.isEmpty_eq_false_iff,
    List.all_eq_true, isDigit_iff_mem]

theorem value_concat (hd : d < 10) : value (t ++ [Nat.digitChar d]) = 10 * value t + d := by
  have hc : (Nat.digitChar d).toNat = 48 + d := Nat.toNat_digitChar_of_lt_ten hd
  rw [value, List.foldl_append, List.foldl_cons, List.foldl_nil, push, hc]
  simp [value]

theorem Denotes.isNumeral (h : Denotes t n) : isNumeral t = true := by
  obtain ⟨zeros, rfl⟩ := h
  rw [Numeral.isNumeral, Bool.and_eq_true]
  refine ⟨by simp [Text.ofNat, Nat.toDigits_ne_nil], List.all_eq_true.2 fun c hc => ?_⟩
  rcases List.mem_append.1 hc with hc | hc
  · rw [List.eq_of_mem_replicate hc]
    rfl
  · exact Nat.isDigit_of_mem_toDigits (by decide) (by decide) hc

/-- Zeros in front do not change a number. -/
theorem Denotes.value (h : Denotes t n) : value t = n := by
  obtain ⟨zeros, rfl⟩ := h
  calc Numeral.value (List.replicate zeros '0' ++ Text.ofNat n)
      = Nat.ofDigitChars 10 (List.replicate zeros '0' ++ Nat.toDigits 10 n) 0 :=
        Nat.ofDigitChars_eq_foldl.symm
    _ = Nat.ofDigitChars 10 (Nat.toDigits 10 n) 0 := by
        rw [Nat.ofDigitChars_append, Nat.ofDigitChars_replicate_zero, Nat.mul_zero]
    _ = n := Nat.ofDigitChars_ten_toDigits

/-- One digit more. -/
theorem Denotes.concat (h : Denotes t n) (hd : d < 10) :
    Denotes (t ++ [Nat.digitChar d]) (10 * n + d) := by
  obtain ⟨zeros, rfl⟩ := h
  have hlast : Text.ofNat d = [Nat.digitChar d] := Nat.toDigits_of_lt_base hd
  rcases Nat.eq_zero_or_pos n with rfl | hn
  · -- the digit of nought is now one of the zeros in front
    refine ⟨zeros + 1, ?_⟩
    rw [Nat.mul_zero, Nat.zero_add, hlast, List.replicate_succ']
    rfl
  · refine ⟨zeros, ?_⟩
    rw [← hlast, List.append_assoc]
    exact congrArg _ (Nat.toDigits_append_toDigits (by decide) hn hd)

/-- Every numeral denotes its value. -/
theorem denotes_value (h : isNumeral t = true) : Denotes t (value t) := by
  have hall : ∀ c ∈ t, c.isDigit = true := List.all_eq_true.1 (Bool.and_eq_true_iff.1 h).2
  have hne : t ≠ [] := (isNumeral_iff_digits.1 h).1
  clear h
  induction t using List.reverseRecOn with
  | nil => exact absurd rfl hne
  | append_singleton t c ih =>
    obtain ⟨d, hd, rfl⟩ := isDigit_iff_digitChar.1 (hall c (by simp))
    rw [value_concat hd]
    by_cases ht : t = []
    · subst ht
      exact ⟨0, by simp [value, Text.ofNat, Nat.toDigits_of_lt_base hd]⟩
    · exact (ih (fun c hc => hall c (by simp [hc])) ht).concat hd

theorem denotes_iff : Denotes t n ↔ isNumeral t = true ∧ value t = n := by
  constructor
  · intro h
    exact ⟨h.isNumeral, h.value⟩
  · rintro ⟨h, rfl⟩
    exact denotes_value h

theorem read_ok_iff : read t = .ok n ↔ Denotes t n ∧ t.length ≤ digitLimit := by
  rw [read, denotes_iff]
  cases isNumeral t with
  | false => simp
  | true => by_cases hl : t.length ≤ digitLimit <;> simp [hl]

theorem read_notNumeral_iff : read t = .error .notNumeral ↔ ¬ Digits t := by
  rw [read, ← isNumeral_iff_digits]
  cases isNumeral t with
  | false => simp
  | true => by_cases hl : t.length ≤ digitLimit <;> simp [hl]

theorem read_tooLong_iff :
    read t = .error (.tooLong d) ↔ Digits t ∧ digitLimit < t.length ∧ d = t.length := by
  rw [read, ← isNumeral_iff_digits]
  cases isNumeral t with
  | false => simp
  | true =>
    by_cases hl : t.length ≤ digitLimit
    · simp [hl, Nat.not_lt.2 hl]
    · simp [hl, Nat.lt_of_not_le hl, eq_comm]

end Numeral

/-! ### Blanks around a text -/

namespace Text

/-- Whether a text is another one with blanks around it. -/
def Wraps (t core : Text) : Prop :=
  ∃ before after, t = before ++ core ++ after ∧ (∀ c ∈ before, isBlank c = true)
    ∧ ∀ c ∈ after, isBlank c = true

variable {t core : Text}

/-- What is trimmed off is blank. -/
theorem wraps_trim (t : Text) : t.Wraps t.trim := by
  let rest := t.dropWhile isBlank
  refine ⟨t.takeWhile isBlank, (rest.reverse.takeWhile isBlank).reverse, ?_, ?_, ?_⟩
  · have hrest : t.trim ++ (rest.reverse.takeWhile isBlank).reverse = rest := by
      rw [trim, ← List.reverse_append, List.takeWhile_append_dropWhile, List.reverse_reverse]
    rw [List.append_assoc, hrest, List.takeWhile_append_dropWhile]
  · intro c hc
    exact List.mem_takeWhile_imp hc
  · intro c hc
    exact List.mem_takeWhile_imp (List.mem_reverse.1 hc)

theorem dropWhile_of_unblank (h : ∀ c ∈ t, isBlank c = false) : t.dropWhile isBlank = t := by
  cases t with
  | nil => rfl
  | cons c t => exact List.dropWhile_cons_of_neg (by simp [h c])

/-- From around a text without blanks all blanks are trimmed off. -/
theorem Wraps.trim_eq (h : t.Wraps core) (hc : ∀ c ∈ core, isBlank c = false) : t.trim = core := by
  obtain ⟨before, after, rfl, hbefore, hafter⟩ := h
  have hcore : core.reverse.dropWhile isBlank = core.reverse :=
    dropWhile_of_unblank fun c h => hc c (List.mem_reverse.1 h)
  rw [trim, List.append_assoc, List.dropWhile_append_of_pos hbefore]
  cases core with
  | nil => simp [List.dropWhile_eq_nil_iff.2 hafter]
  | cons c core =>
    have hhead : ¬ isBlank c = true := by simp [hc c]
    rw [List.cons_append, List.dropWhile_cons_of_neg hhead, ← List.cons_append, List.reverse_append,
      List.dropWhile_append_of_pos fun c h => hafter c (List.mem_reverse.1 h), hcore,
      List.reverse_reverse]

end Text

namespace Numeral

variable {t core : Text} {n : Nat}

theorem Denotes.unblank (h : Denotes t n) : ∀ c ∈ t, Text.isBlank c = false := by
  have hall : ("0123456789".toList.all fun c => !Text.isBlank c) = true := rfl
  intro c hc
  simpa using List.all_eq_true.1 hall c ((isNumeral_iff_digits.1 h.isNumeral).2 c hc)

end Numeral

/-! ### Ports -/

/-- Whether a value is read from the text of a number, of no more digits than are read and perhaps with
blanks around it. -/
def Value.Denotes (v : Value) (n : Nat) : Prop :=
  ∃ t core, v.toText = .ok t ∧ t.Wraps core ∧ Numeral.Denotes core n
    ∧ core.length ≤ Numeral.digitLimit

section Port

variable {v w : Value} {t : Text} {n : Nat} {f : Fault}

theorem Value.toText_error_iff : v.toText = .error f ↔
    ∃ i : Int, v = .int i ∧ Numeral.digitLimit < (Text.ofNat i.natAbs).length
      ∧ f = .tooLargeToWrite := by
  cases v with
  | int i =>
    rw [toText]
    by_cases hl : (Text.ofNat i.natAbs).length ≤ Numeral.digitLimit
    · simp [hl, Nat.not_lt.2 hl]
    · simp [hl, Nat.lt_of_not_le hl, eq_comm]
  | none | bool | text | bytes => simp [toText]

/-- The blanks around a number are those that are trimmed off. -/
theorem Value.denotes_iff :
    v.Denotes n ↔ ∃ t, v.toText = .ok t ∧ Numeral.read t.trim = .ok n := by
  constructor
  · rintro ⟨t, core, ht, hw, hd, hl⟩
    refine ⟨t, ht, ?_⟩
    rw [hw.trim_eq hd.unblank]
    exact Numeral.read_ok_iff.2 ⟨hd, hl⟩
  · rintro ⟨t, ht, hr⟩
    obtain ⟨hd, hl⟩ := Numeral.read_ok_iff.1 hr
    exact ⟨t, t.trim, ht, t.wraps_trim, hd, hl⟩

theorem readPort_ok_iff : readPort v = .ok n ↔ v.Denotes n ∧ n ≤ maxPort := by
  rw [Value.denotes_iff, readPort]
  cases v.toText with
  | error f => simp
  | ok t =>
    simp only [Except.ok.injEq, exists_eq_left']
    cases Numeral.read t.trim with
    | error r => cases r <;> simp
    | ok m =>
      by_cases hm : m ≤ maxPort
      · simp only [if_pos hm, Except.ok.injEq]
        constructor
        · rintro rfl
          exact ⟨rfl, hm⟩
        · rintro ⟨h, -⟩
          exact h
      · simp only [if_neg hm, Except.ok.injEq]
        refine iff_of_false nofun ?_
        rintro ⟨rfl, hn⟩
        exact hm hn

theorem readPort_invalid_iff : readPort v = .error (.invalidPort w) ↔
    w = v ∧ ((∃ n, v.Denotes n ∧ maxPort < n)
      ∨ ∃ t, v.toText = .ok t ∧ ¬ Numeral.Digits t.trim) := by
  simp only [Value.denotes_iff, readPort, ← Numeral.read_notNumeral_iff]
  cases v.toText with
  | error f => simp
  | ok t =>
    simp only [Except.ok.injEq, exists_eq_left']
    cases Numeral.read t.trim with
    | error r => cases r <;> simp [eq_comm]
    | ok m =>
      by_cases hm : m ≤ maxPort
      · simp [hm]
      · simp [hm, Nat.lt_of_not_le hm, eq_comm]

theorem readPort_fault_iff : readPort v = .error (.fault f) ↔
    v.toText = .error f ∨ ∃ t, v.toText = .ok t ∧ Numeral.Digits t.trim
      ∧ Numeral.digitLimit < t.trim.length ∧ f = .tooManyDigits t.trim.length := by
  rw [readPort]
  cases v.toText with
  | error f' => simp
  | ok t =>
    simp only [reduceCtorEq, false_or, Except.ok.injEq, exists_eq_left']
    cases hr : Numeral.read t.trim with
    | error r =>
      cases r with
      | notNumeral => simp [Numeral.read_notNumeral_iff.1 hr]
      | tooLong d =>
        obtain ⟨hd, hl, rfl⟩ := Numeral.read_tooLong_iff.1 hr
        simp [hd, hl, eq_comm]
    | ok m =>
      have hl := (Numeral.read_ok_iff.1 hr).2
      by_cases hm : m ≤ maxPort <;> simp [hm, Nat.not_lt.2 hl]

end Port

/-! ### Counts and ports -/

/-- What comes of an action that is to count: the number that its parameter denotes, an error that names
the action and shows the parameter if that is absent or not of digits only, or a fault if there are more
digits than are read. -/
structure Action.CountsExactly (a : Action) : Prop where
  counted_iff : ∀ n, a.count = .ok n ↔
    ∃ p, a.param = some p ∧ Numeral.Denotes p n ∧ p.length ≤ Numeral.digitLimit
  refused_iff : ∀ e, a.count = .error (.error e) ↔
    e = .invalidParameter a.name a.param ∧ ∀ p, a.param = some p → ¬ Numeral.Digits p
  overlong_iff : ∀ f, a.count = .error (.fault f) ↔
    ∃ p, a.param = some p ∧ Numeral.Digits p ∧ Numeral.digitLimit < p.length
      ∧ f = .tooManyDigits p.length

/-- What comes of a value that is to be a port: the number that it denotes, an error that holds the value
if that number is too great or the text without the blanks around it is not of digits only, or a fault if
there are more digits than are read or written. -/
structure Value.PortsExactly (v : Value) : Prop where
  read_iff : ∀ n, readPort v = .ok n ↔ v.Denotes n ∧ n ≤ maxPort
  refused_iff : ∀ w, readPort v = .error (.invalidPort w) ↔
    w = v ∧ ((∃ n, v.Denotes n ∧ maxPort < n)
      ∨ ∃ t, v.toText = .ok t ∧ ¬ Numeral.Digits t.trim)
  overlong_iff : ∀ f, readPort v = .error (.fault f) ↔
    (∃ i : Int, v = .int i ∧ Numeral.digitLimit < (Text.ofNat i.natAbs).length
      ∧ f = .tooLargeToWrite)
    ∨ ∃ t, v.toText = .ok t ∧ Numeral.Digits t.trim ∧ Numeral.digitLimit < t.trim.length
      ∧ f = .tooManyDigits t.trim.length

/-- Digits of other scripts are none. -/
example : let a : Action := ⟨"DATA".toList, some "٣".toList⟩
    Text.isDecimalDigit '٣' = true ∧ a.count = .error (.error (.invalidParameter a.name a.param)) := by
  decide

/-- Neither the zeros in front nor blanks beyond ASCII matter for a port. -/
example : readPort (.text "\u3000 0065535\x1c".toList) = .ok 65535 := by decide

end ScriptedServer
