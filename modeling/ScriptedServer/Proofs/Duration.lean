import Mathlib.Algebra.Order.Field.Basic
import Mathlib.Algebra.Order.Field.Power
import Mathlib.Algebra.Order.Ring.Rat
import Mathlib.Tactic.FieldSimp
import Mathlib.Tactic.Ring
import Mathlib.Tactic.Linarith
import ScriptedServer.Binary64

/-!
When a quotient has no finite double. `exponent_window` says that the exponent found from the two
logarithms is the right one; with it the bits of the rounded quotient are bounded from both sides,
and `ofRatio?_eq_none_iff` gives the least quotient that is rounded beyond the finite doubles.
-/

namespace ScriptedServer.Binary64

/-! ### Rounding to an integer -/

theorem div_le_roundDiv (num den : Nat) : num / den ≤ roundDiv num den := by
  simp only [roundDiv]
  split
  · omega
  · split <;> omega

theorem roundDiv_le (num den : Nat) : roundDiv num den ≤ num / den + 1 := by
  simp only [roundDiv]
  split
  · omega
  · split <;> omega

/-- An even integer is reached from halfway below it on. -/
theorem le_roundDiv_iff {num den k : Nat} (hd : 0 < den) (hk : k % 2 = 0) :
    k ≤ roundDiv num den ↔ 2 * (k * den) ≤ 2 * num + den := by
  have hnum := Nat.div_add_mod num den
  have hr := Nat.mod_lt num hd
  rw [Nat.mul_comm] at hnum
  rcases Nat.lt_trichotomy k (num / den + 1) with h | h | h
  · -- below the quotient: reached without rounding up
    have hle := Nat.mul_le_mul_right den (Nat.le_of_lt_succ h)
    have := div_le_roundDiv num den
    constructor
    · intro; omega
    · intro; omega
  · -- one above it: the remainder decides, and the quotient is odd
    subst h
    rw [Nat.add_mul, Nat.one_mul]
    have hodd : num / den % 2 = 1 := by omega
    simp only [roundDiv, hodd]
    split
    · omega
    · split <;> omega
  · have hle := Nat.mul_le_mul_right den (Nat.succ_le_of_lt h)
    rw [Nat.succ_mul, Nat.add_mul, Nat.one_mul] at hle
    have := roundDiv_le num den
    constructor
    · intro; omega
    · intro; omega

/-! ### Scaling -/

theorem scale_den_pos {den : Nat} (num : Nat) (hd : 0 < den) (power : Int) :
    0 < (scale num den power).2 := by
  rw [scale]
  split
  · exact hd
  · rw [Nat.shiftLeft_eq]
    exact Nat.mul_pos hd (Nat.two_pow_pos _)

theorem scale_negSucc (num den k : Nat) :
    scale num den (Int.negSucc k) = (num, den * 2 ^ (k + 1)) := by
  rw [← Nat.shiftLeft_eq]
  rfl

/-- Scaling multiplies the quotient by a power of two. -/
theorem scale_ratio (num : Nat) {den : Nat} (hd : 0 < den) (power : Int) :
    ((scale num den power).1 : ℚ) / (scale num den power).2 = num / den * 2 ^ power := by
  have hden : (den : ℚ) ≠ 0 := by exact_mod_cast hd.ne'
  rw [scale]
  split
  · rename_i h
    obtain ⟨k, rfl⟩ := Int.eq_ofNat_of_zero_le h
    simp only [Int.toNat_natCast, Nat.shiftLeft_eq, zpow_natCast]
    push_cast
    ring
  · rename_i h
    obtain ⟨k, hk⟩ := Int.eq_ofNat_of_zero_le (show 0 ≤ -power by omega)
    obtain rfl : power = -(k : Int) := by omega
    simp only [neg_neg, Int.toNat_natCast, Nat.shiftLeft_eq, zpow_neg, zpow_natCast]
    push_cast
    field_simp

/-! ### The exponent -/

/-- A positive natural number lies between the power of two that its logarithm gives and the next. -/
theorem log2_window {n : Nat} (hn : n ≠ 0) :
    (2 : ℚ) ^ (n.log2 : Int) ≤ n ∧ (n : ℚ) < 2 ^ ((n.log2 : Int) + 1) := by
  have hlo := Nat.log2_self_le hn
  have hhi := Nat.lt_log2_self (n := n)
  constructor
  · rw [zpow_natCast]
    exact_mod_cast hlo
  · rw [← Nat.cast_succ, zpow_natCast]
    exact_mod_cast hhi

/-- The two logarithms leave two exponents open for a quotient. -/
theorem ratio_window {num den : Nat} (hn : num ≠ 0) (hd : 0 < den) :
    (2 : ℚ) ^ ((num.log2 : Int) - den.log2 - 1) ≤ num / den
      ∧ (num / den : ℚ) < 2 ^ ((num.log2 : Int) - den.log2 + 1) := by
  have hden : (0 : ℚ) < den := by exact_mod_cast hd
  have htwo : (2 : ℚ) ≠ 0 := by norm_num
  obtain ⟨hnlo, hnhi⟩ := log2_window hn
  obtain ⟨hdlo, hdhi⟩ := log2_window hd.ne'
  constructor
  · rw [le_div_iff₀ hden]
    calc (2 : ℚ) ^ ((num.log2 : Int) - den.log2 - 1) * den
        ≤ 2 ^ ((num.log2 : Int) - den.log2 - 1) * 2 ^ ((den.log2 : Int) + 1) :=
          mul_le_mul_of_nonneg_left hdhi.le (zpow_pos (by norm_num) _).le
      _ = 2 ^ (num.log2 : Int) := by rw [← zpow_add₀ htwo]; congr 1; omega
      _ ≤ num := hnlo
  · rw [div_lt_iff₀ hden]
    calc (num : ℚ) < 2 ^ ((num.log2 : Int) + 1) := hnhi
      _ = 2 ^ ((num.log2 : Int) - den.log2 + 1) * 2 ^ (den.log2 : Int) := by
          rw [← zpow_add₀ htwo]; congr 1; omega
      _ ≤ 2 ^ ((num.log2 : Int) - den.log2 + 1) * den :=
          mul_le_mul_of_nonneg_left hdlo (zpow_pos (by norm_num) _).le

/-- A quotient lies between the power of two that its exponent gives and the next. -/
theorem exponent_window {num den : Nat} (hn : num ≠ 0) (hd : 0 < den) :
    (2 : ℚ) ^ exponent num den ≤ num / den
      ∧ (num / den : ℚ) < 2 ^ (exponent num den + 1) := by
  obtain ⟨hlo, hhi⟩ := ratio_window hn hd
  have hscale := scale_ratio num hd (-((num.log2 : Int) - den.log2))
  have hpos : (0 : ℚ) < (scale num den (-((num.log2 : Int) - den.log2))).2 := by
    exact_mod_cast scale_den_pos num hd _
  have hp : (0 : ℚ) < 2 ^ ((num.log2 : Int) - den.log2) := zpow_pos (by norm_num) _
  rw [zpow_neg, ← div_eq_mul_inv] at hscale
  -- comparing the scaled quotient with one decides between the two exponents
  simp only [exponent]
  split
  · rename_i h
    have hlt : (num / den : ℚ) / 2 ^ ((num.log2 : Int) - den.log2) < 1 := by
      rw [← hscale, div_lt_one hpos]
      exact_mod_cast h
    rw [div_lt_one hp] at hlt
    exact ⟨hlo, by rw [Int.sub_add_cancel]; exact hlt⟩
  · rename_i h
    have hle : 1 ≤ (num / den : ℚ) / 2 ^ ((num.log2 : Int) - den.log2) := by
      rw [← hscale, one_le_div hpos]
      exact_mod_cast Nat.le_of_not_lt h
    rw [one_le_div hp] at hle
    exact ⟨hle, hhi⟩

/-! ### The bounds in natural numbers -/

section Bounds

variable {num den k : Nat} {e p : Int}

theorem lt_of_ratio_lt (hd : 0 < den) (h : (num / den : ℚ) < 2 ^ e) (hk : e ≤ k) :
    num < den * 2 ^ k := by
  have hden : (0 : ℚ) < den := by exact_mod_cast hd
  have hlt : (num / den : ℚ) < 2 ^ (k : Int) :=
    h.trans_le (zpow_le_zpow_right₀ (by norm_num) hk)
  rw [div_lt_iff₀ hden, zpow_natCast, mul_comm] at hlt
  exact_mod_cast hlt

theorem le_of_le_ratio (hd : 0 < den) (h : (2 : ℚ) ^ e ≤ num / den) (hk : (k : Int) ≤ e) :
    den * 2 ^ k ≤ num := by
  have hden : (0 : ℚ) < den := by exact_mod_cast hd
  have hle : (2 : ℚ) ^ (k : Int) ≤ num / den :=
    (zpow_le_zpow_right₀ (by norm_num) hk).trans h
  rw [le_div_iff₀ hden, zpow_natCast, mul_comm] at hle
  exact_mod_cast hle

theorem scale_div_lt (hd : 0 < den) (h : (num / den : ℚ) < 2 ^ e) (hk : e + p ≤ k) :
    (scale num den p).1 / (scale num den p).2 < 2 ^ k := by
  have hs : ((scale num den p).1 / (scale num den p).2 : ℚ) < 2 ^ (e + p) := by
    rw [scale_ratio num hd, zpow_add₀ (by norm_num)]
    exact mul_lt_mul_of_pos_right h (zpow_pos (by norm_num) _)
  exact Nat.div_lt_of_lt_mul (lt_of_ratio_lt (scale_den_pos num hd p) hs hk)

theorem le_scale_div (hd : 0 < den) (h : (2 : ℚ) ^ e ≤ num / den) (hk : (k : Int) ≤ e + p) :
    2 ^ k ≤ (scale num den p).1 / (scale num den p).2 := by
  have hs : (2 : ℚ) ^ (e + p) ≤ (scale num den p).1 / (scale num den p).2 := by
    rw [scale_ratio num hd, zpow_add₀ (by norm_num)]
    exact mul_le_mul_of_nonneg_right h (zpow_pos (by norm_num) _).le
  rw [Nat.le_div_iff_mul_le (scale_den_pos num hd p), Nat.mul_comm]
  exact le_of_le_ratio (scale_den_pos num hd p) hs hk

end Bounds

/-! ### Overflow -/

/-- The least number that is rounded beyond the finite doubles: halfway between the greatest of them
and the next power of two. -/
def beyond : Nat := (2 ^ 54 - 1) * 2 ^ 970

theorem beyond_pos : 0 < beyond := by decide +kernel

theorem le_beyond : 2 ^ 1023 ≤ beyond := by decide +kernel

theorem beyond_le : beyond ≤ 2 ^ 1024 := by decide +kernel

/-- With the last exponent, the integer part is rounded out of range from `beyond` on. -/
theorem le_roundDiv_last (num : Nat) {den : Nat} (hd : 0 < den) :
    2 ^ 53 ≤ roundDiv (scale num den (-971)).1 (scale num den (-971)).2 ↔ den * beyond ≤ num := by
  have hunit : 0 < 2 ^ 970 := by decide +kernel
  rw [show (-971 : Int) = Int.negSucc 970 from rfl, scale_negSucc, pow_succ 2 970, beyond]
  generalize 2 ^ 970 = unit at hunit
  have hx : den * ((2 ^ 54 - 1) * unit) = (2 ^ 54 - 1) * (den * unit) := Nat.mul_left_comm ..
  rw [le_roundDiv_iff (Nat.mul_pos hd (Nat.mul_pos hunit (by decide))) (by decide), hx,
    ← Nat.mul_assoc den]
  omega

/-- A quotient has no finite double from `beyond` on. -/
theorem ofRatio?_eq_none_iff (num : Nat) {den : Nat} (hd : 0 < den) :
    ofRatio? num den = none ↔ den * beyond ≤ num := by
  by_cases hn : num = 0
  · have hpos := Nat.mul_pos hd beyond_pos
    simp only [ofRatio?, hn, if_true]
    constructor
    · intro h; cases h
    · intro h; omega
  · obtain ⟨hlo, hhi⟩ := exponent_window hn hd
    simp only [ofRatio?, hn, if_false, Nat.shiftLeft_eq]
    rw [ite_eq_right_iff]
    rcases Int.lt_trichotomy (exponent num den) 1023 with he | he | he
    · -- up to here the integer part stays within the last exponent but one
      have hdiv := scale_div_lt (p := 52 - max (exponent num den) (-1022)) (k := 53) hd hhi
        (by omega)
      have hround := roundDiv_le (scale num den (52 - max (exponent num den) (-1022))).1
        (scale num den (52 - max (exponent num den) (-1022))).2
      have hlt : num < den * beyond :=
        (lt_of_ratio_lt (k := 1023) hd hhi (by omega)).trans_le (Nat.mul_le_mul_left den le_beyond)
      constructor
      · intro h; exact absurd (h (by omega)) (by simp)
      · intro h; omega
    · have hlast := le_roundDiv_last num hd
      rw [he, show max (1023 : Int) (-1022) = 1023 from rfl, ← hlast,
        show (52 : Int) - 1023 = -971 from rfl]
      constructor
      · intro h
        by_contra hlt
        exact absurd (h (by omega)) (by simp)
      · intro hle h; omega
    · have hdiv := le_scale_div (p := 52 - max (exponent num den) (-1022)) (k := 52) hd hlo
        (by omega)
      have hround := div_le_roundDiv (scale num den (52 - max (exponent num den) (-1022))).1
        (scale num den (52 - max (exponent num den) (-1022))).2
      have hle : den * beyond ≤ num :=
        (Nat.mul_le_mul_left den beyond_le).trans (le_of_le_ratio (k := 1024) hd hlo (by omega))
      constructor
      · intro _; exact hle
      · intro _ h; omega

end ScriptedServer.Binary64
