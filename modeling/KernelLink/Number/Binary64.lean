/-!
# Binary floating point in exact arithmetic

Finite double-precision numbers as sign, mantissa and exponent, with the three operations that
reading a decimal needs: the nearest double to a ratio of natural numbers, the product and the
quotient. Each result is the exact one rounded once, to the nearest double, a tie to the even
mantissa. A result past the greatest double is `none`.

Main definitions:
* `Binary64`: a finite double.
* `nearest`: the double nearest to a ratio.
* `mul`, `div`: product and quotient of magnitudes.
-/
namespace KernelLink

/-- The finite double `± mantissa · 2 ^ exponent`. In the canonical form, which `nearest` gives, the
mantissa has 53 bits, or fewer with the exponent −1074. -/
structure Binary64 where
  /-- Is the sign bit set? Zero has a sign too. -/
  negative : Bool
  /-- The digits in base two. -/
  mantissa : Nat
  /-- The power of two that they are scaled by. -/
  exponent : Int
  deriving Repr, DecidableEq

namespace Binary64

/-- Positive zero. -/
def zero : Binary64 := ⟨false, 0, -1074⟩

/-- Is the magnitude zero? -/
def isZero (x : Binary64) : Bool := x.mantissa == 0

/-- The same magnitude with the sign bit set. -/
def neg (x : Binary64) : Binary64 := { x with negative := true }

/-- The ratio `num / den` rounded to a natural number, a tie to the even one. -/
def roundedQuotient (num den : Nat) : Nat :=
  let q := num / den
  let twice := 2 * (num % den)
  if twice < den then q
  else if den < twice then q + 1
  else q + q % 2

/-- The ratio `num / den` scaled by `2 ^ (-exponent)`, rounded. -/
def scaledQuotient (num den : Nat) (exponent : Int) : Nat :=
  match exponent with
  | .ofNat e => roundedQuotient num (den * Nat.pow 2 e)
  | .negSucc e => roundedQuotient (num * Nat.pow 2 (e + 1)) den

/-- The exponent for which `num / den` has 53 binary digits before the point, bounded below by
−1074. The estimate from the lengths of the two numbers is off by at most one. -/
def exponentOf (num den : Nat) : Int :=
  let guess : Int := (Nat.log2 num : Int) - (Nat.log2 den : Int) - 52
  let atLeast : Bool :=
    match guess with
    | .ofNat e => decide (den * Nat.pow 2 (e + 52) ≤ num)
    | .negSucc e => decide (den * Nat.pow 2 52 ≤ num * Nat.pow 2 (e + 1))
  max (if atLeast then guess else guess - 1) (-1074)

/-- The double nearest to `num / den`; `none` past the greatest double. -/
def nearest (num den : Nat) : Option Binary64 :=
  if num = 0 ∨ den = 0 then some zero
  else
    let e := exponentOf num den
    let m := scaledQuotient num den e
    let (m, e) := if m = Nat.pow 2 53 then (Nat.pow 2 52, e + 1) else (m, e)
    if 971 < e then none
    else if m = 0 then some zero
    else some ⟨false, m, e⟩

/-- The magnitude as a ratio of natural numbers. -/
def ratio (x : Binary64) : Nat × Nat :=
  match x.exponent with
  | .ofNat e => (x.mantissa * Nat.pow 2 e, 1)
  | .negSucc e => (x.mantissa, Nat.pow 2 (e + 1))

/-- The product of two magnitudes. -/
def mul (x y : Binary64) : Option Binary64 :=
  nearest (x.ratio.1 * y.ratio.1) (x.ratio.2 * y.ratio.2)

/-- The quotient of two magnitudes. -/
def div (x y : Binary64) : Option Binary64 :=
  nearest (x.ratio.1 * y.ratio.2) (x.ratio.2 * y.ratio.1)

/-- The double nearest to a natural number below `2 ^ 64`. -/
def ofNat (n : Nat) : Binary64 := (nearest n 1).getD zero

/-- The double nearest to a power of ten with an exponent of at most 308. -/
def powerOfTen (k : Nat) : Binary64 := (nearest (Nat.pow 10 k) 1).getD zero

/-- Divides by ten to the power `k`, in steps of at most 308 so that each divisor is a double. -/
def divPowerOfTen (x : Binary64) (k : Nat) : Binary64 :=
  if k ≤ 308 then (x.div (powerOfTen k)).getD zero
  else if x.isZero then x
  else divPowerOfTen ((x.div (powerOfTen 308)).getD zero) (k - 308)
  termination_by k

/-- The double that the decimal `digits · 10 ^ exponent` is read as: the nearest double to the
digits, multiplied or divided by the nearest double to the power of ten. Each of the two roundings
is exact to half a unit, so the result may differ from the decimal by more than one rounding would
allow. -/
def ofDecimal (digits : Nat) (exponent : Int) : Option Binary64 :=
  let x := ofNat digits
  match exponent with
  | .ofNat e =>
    if e ≤ 308 then x.mul (powerOfTen e)
    else if x.isZero then some x
    else none
  | .negSucc e => some (x.divPowerOfTen (e + 1))

end Binary64
end KernelLink
