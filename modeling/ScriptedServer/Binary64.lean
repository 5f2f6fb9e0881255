/-!
The IEEE 754 double nearest to a quotient of natural numbers, by exact integer arithmetic: the
quotient is scaled by a power of two until its integer part has 53 bits (fewer below the smallest
normal number), and rounded there, a tie going to the even neighbour. The bits of the result are
the biased exponent and that integer added up, so a carry out of the rounding moves to the next
exponent by itself.
-/

namespace ScriptedServer

/-- A double, as its 64 bits. -/
structure Binary64 where
  bits : Nat
  deriving DecidableEq

namespace Binary64

/-- The integer nearest to `num / den`, the even one of two. -/
def roundDiv (num den : Nat) : Nat :=
  let q := num / den
  let r := num % den
  if 2 * r < den then q else if den < 2 * r then q + 1 else q + q % 2

/-- `num / den` scaled by a power of two, as numerator and denominator. -/
def scale (num den : Nat) (power : Int) : Nat × Nat :=
  if 0 ≤ power then (num <<< power.toNat, den) else (num, den <<< (-power).toNat)

/-- The exponent `e` with `2 ^ e ≤ num / den < 2 ^ (e + 1)`. -/
def exponent (num den : Nat) : Int :=
  let e : Int := (num.log2 : Int) - (den.log2 : Int)
  let scaled := scale num den (-e)
  if scaled.1 < scaled.2 then e - 1 else e

/-- The double nearest to `num / den`, or `none` if that is not finite. -/
def ofRatio? (num den : Nat) : Option Binary64 :=
  if num = 0 then some ⟨0⟩
  else
    let e := max (exponent num den) (-1022)
    let scaled := scale num den (52 - e)
    let bits := (e + 1022).toNat <<< 52 + roundDiv scaled.1 scaled.2
    if bits < 0x7FF <<< 52 then some ⟨bits⟩ else none

end Binary64
end ScriptedServer
