import KernelLink.Number.Binary64
/-!
# The shortest decimal that reads back

For a positive double, the decimal with the fewest digits among those that round to it, and of these
the nearest; an exact tie goes to the even last digit. All comparisons are between natural numbers.

The reals that round to `m · 2 ^ e` lie between the midpoints to its two neighbours, the ends
included exactly when `m` is even. On the grid of decimals with a given number of digits it is
enough to test the two grid points next to the double.

Main definition: `Binary64.shortest`.
-/
namespace KernelLink
namespace Binary64

/-- A decimal `digits · 10 ^ power`. -/
structure Decimal where
  /-- The digits as one number. -/
  digits : Nat
  /-- The power of ten that they are scaled by. -/
  power : Int
  deriving Repr, DecidableEq

/-- The reals that round to a double, as numerators over one denominator. -/
structure Interval where
  /-- The lower end. -/
  low : Nat
  /-- The double itself. -/
  middle : Nat
  /-- The upper end. -/
  high : Nat
  /-- The common denominator. -/
  denominator : Nat
  /-- Do the ends round to the double as well? -/
  closed : Bool
  deriving Repr, DecidableEq

/-- The interval of a double with a positive mantissa. Below a power of two the neighbours are half
as far away. -/
def interval (x : Binary64) : Interval :=
  let lowGap := if x.mantissa = Nat.pow 2 52 ∧ x.exponent ≠ -1074 then 1 else 2
  let closed := x.mantissa % 2 == 0
  match x.exponent with
  | .ofNat e =>
    ⟨(4 * x.mantissa - lowGap) * Nat.pow 2 e, 4 * x.mantissa * Nat.pow 2 e,
      (4 * x.mantissa + 2) * Nat.pow 2 e, 4, closed⟩
  | .negSucc e =>
    ⟨4 * x.mantissa - lowGap, 4 * x.mantissa, 4 * x.mantissa + 2, 4 * Nat.pow 2 (e + 1), closed⟩

/-- Numerators and denominator after division by `10 ^ power`. -/
def Interval.scale (i : Interval) (power : Int) : Interval :=
  match power with
  | .ofNat p => { i with denominator := i.denominator * Nat.pow 10 p }
  | .negSucc p =>
    { i with
      low := i.low * Nat.pow 10 (p + 1)
      middle := i.middle * Nat.pow 10 (p + 1)
      high := i.high * Nat.pow 10 (p + 1) }

/-- Does the natural number `d` lie in the interval? -/
def Interval.holds (i : Interval) (d : Nat) : Bool :=
  let n := d * i.denominator
  if i.closed then decide (i.low ≤ n) && decide (n ≤ i.high)
  else decide (i.low < n) && decide (n < i.high)

/-- The natural number in the interval that is next to its middle, if there is one. -/
def Interval.nearestHeld (i : Interval) : Option Nat :=
  let below := i.middle / i.denominator
  let above := below + 1
  match i.holds below, i.holds above with
  | false, false => none
  | true, false => some below
  | false, true => some above
  | true, true =>
    let down := i.middle - below * i.denominator
    let up := above * i.denominator - i.middle
    if down < up then some below
    else if up < down then some above
    else some (if below % 2 = 0 then below else above)

/-- The exponent of the leading decimal digit of `num / den`, found by counting from a bound that
the lengths in base two give. -/
def leadingExponent (num den : Nat) : Int :=
  let guess : Int := ((Nat.log2 num : Int) - (Nat.log2 den : Int) - 1) * 30103 / 100000 - 1
  let reached (k : Int) : Bool :=
    match k with
    | .ofNat k => decide (den * Nat.pow 10 k ≤ num)
    | .negSucc k => decide (den ≤ num * Nat.pow 10 (k + 1))
  let rec climb : Nat → Int → Int
    | 0, k => k
    | fuel + 1, k => if reached (k + 1) then climb fuel (k + 1) else k
  climb 6 guess

/-- Drops zeros from the end of the digits and counts them in the power. -/
def Decimal.trimZeros : Nat → Decimal → Decimal
  | 0, d => d
  | fuel + 1, d =>
    if d.digits ≠ 0 ∧ d.digits % 10 = 0 then Decimal.trimZeros fuel ⟨d.digits / 10, d.power + 1⟩
    else d

/-- The first hit when the number of digits grows from `count` on. -/
def searchFrom (i : Interval) (lead : Int) : (tries count : Nat) → Option Decimal
  | 0, _ => none
  | tries + 1, count =>
    let power := lead - (count : Int) + 1
    match (i.scale power).nearestHeld with
    | some d => some (Decimal.trimZeros 20 ⟨d, power⟩)
    | none => searchFrom i lead tries (count + 1)

/-- The shortest decimal that rounds to the magnitude of `x`; seventeen digits always suffice. -/
def shortest (x : Binary64) : Decimal :=
  if x.isZero then ⟨0, 0⟩
  else
    let i := x.interval
    let lead := leadingExponent i.middle i.denominator
    (searchFrom i lead 17 1).getD ⟨0, 0⟩

end Binary64
end KernelLink
