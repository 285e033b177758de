import KernelLink.Number.Shortest
import KernelLink.Proofs.Number.Rounding
/-!
# The shortest decimal lies next to its double

Whatever the search for the shortest decimal finds lies in the interval of the decimals that round
to the double. So it is at most half a unit above the double.

Main definitions:
* `Binary64.Decimal.toRat`: the magnitude of a decimal.
* `Binary64.Interval.Within`: a decimal in the interval of a double.

Main results:
* `Binary64.within_of_searchFrom`: what is found lies in the interval.
* `Binary64.shortest_spec`: the shortest decimal of a double.
-/
namespace KernelLink.Binary64

/-- The magnitude of a decimal. -/
def Decimal.toRat (d : Decimal) : ℚ := d.digits * 10 ^ d.power

/-- Dropping zeros changes nothing, as each of them is made up for by the exponent. -/
theorem Decimal.toRat_trimZeros (fuel : Nat) (d : Decimal) :
    (trimZeros fuel d).toRat = d.toRat := by
  induction fuel generalizing d with
  | zero => rfl
  | succ fuel ih =>
    rw [trimZeros]
    split
    · next hzero =>
      rw [ih]
      unfold toRat
      have hdigits : (d.digits : ℚ) = (d.digits / 10 : ℕ) * 10 := by
        exact_mod_cast (Nat.div_mul_cancel (Nat.dvd_of_mod_eq_zero hzero.2)).symm
      rw [zpow_add_one₀ (by norm_num), hdigits]
      ring
    · rfl

/-- Some digit is left that is not zero, since only zeros are dropped. -/
theorem Decimal.trimZeros_pos (fuel : Nat) {d : Decimal} (h : 0 < d.digits) :
    0 < (trimZeros fuel d).digits := by
  induction fuel generalizing d with
  | zero => exact h
  | succ fuel ih =>
    rw [trimZeros]
    split
    · next hzero => exact ih (by show 0 < d.digits / 10; omega)
    · exact h

/-- The decimal lies in the interval. -/
structure Interval.Within (i : Interval) (d : Decimal) : Prop where
  /-- It is not zero. -/
  pos : 0 < d.digits
  /-- It is not above the upper end. -/
  le : d.toRat ≤ i.high / i.denominator

variable {i : Interval} {d : Nat}

/-- A decimal that is held lies within the bounds, or strictly between them. -/
theorem Interval.holds_le (h : i.holds d = true) :
    i.low ≤ d * i.denominator ∧ d * i.denominator ≤ i.high := by
  unfold holds at h
  split at h
  · simpa using h
  · have : i.low < d * i.denominator ∧ d * i.denominator < i.high := by simpa using h
    omega

/-- A decimal on the grid of a power of ten that the scaled interval holds lies in the interval. -/
theorem Interval.within_of_holds (hlow : 0 < i.low) (hden : 0 < i.denominator) (power : ℤ)
    (h : (i.scale power).holds d = true) : i.Within ⟨d, power⟩ := by
  obtain ⟨hge, hle⟩ := holds_le h
  have hden' : (0 : ℚ) < i.denominator := Nat.cast_pos.mpr hden
  cases power with
  | ofNat p =>
    replace hge : i.low ≤ d * (i.denominator * 10 ^ p) := hge
    replace hle : d * (i.denominator * 10 ^ p) ≤ i.high := hle
    refine ⟨Nat.pos_of_mul_pos_right (hlow.trans_le hge), ?_⟩
    have hcast : (d * (i.denominator * 10 ^ p) : ℚ) ≤ i.high := by exact_mod_cast hle
    unfold Decimal.toRat
    rw [le_div_iff₀ hden', Int.ofNat_eq_natCast, zpow_natCast]
    linarith
  | negSucc p =>
    replace hge : i.low * 10 ^ (p + 1) ≤ d * i.denominator := hge
    replace hle : d * i.denominator ≤ i.high * 10 ^ (p + 1) := hle
    have hpow : 0 < i.low * 10 ^ (p + 1) := by positivity
    refine ⟨Nat.pos_of_mul_pos_right (hpow.trans_le hge), ?_⟩
    have hcast : (d * i.denominator : ℚ) ≤ i.high * 10 ^ (p + 1) := by exact_mod_cast hle
    unfold Decimal.toRat
    rw [zpow_negSucc, ← div_eq_mul_inv, div_le_div_iff₀ (by positivity) hden']
    exact hcast

/-- The nearest decimal that is chosen is one that is held, whichever of the two neighbours it is.
-/
theorem Interval.holds_of_nearestHeld (h : i.nearestHeld = some d) : i.holds d = true := by
  unfold nearestHeld at h
  dsimp only at h
  split at h
  · exact nomatch h
  · next hbelow _ => exact Option.some.inj h ▸ hbelow
  · next _ habove => exact Option.some.inj h ▸ habove
  · -- both neighbours are held, and one of them is taken
    next hbelow habove =>
    split at h
    · exact Option.some.inj h ▸ hbelow
    split at h
    · exact Option.some.inj h ▸ habove
    · obtain rfl := Option.some.inj h
      split
      · exact hbelow
      · exact habove

theorem Interval.Within.trimZeros {d : Decimal} (h : i.Within d) (fuel : Nat) :
    i.Within (Decimal.trimZeros fuel d) :=
  ⟨Decimal.trimZeros_pos fuel h.pos, (Decimal.toRat_trimZeros fuel d).trans_le h.le⟩

/-- What is found lies in the interval, however many digits were tried. -/
theorem within_of_searchFrom (hlow : 0 < i.low) (hden : 0 < i.denominator) {lead : ℤ}
    {tries count : Nat} {d : Decimal} (h : searchFrom i lead tries count = some d) :
    i.Within d := by
  induction tries generalizing count with
  | zero => exact nomatch h
  | succ tries ih =>
    rw [searchFrom] at h
    split at h
    · next hheld =>
      obtain rfl := Option.some.inj h
      exact (Interval.within_of_holds hlow hden _ (Interval.holds_of_nearestHeld hheld)).trimZeros _
    · exact ih h

variable {x : Binary64}

/-- The interval of a double that is not zero ends half a unit above it. -/
theorem interval_spec (h : 0 < x.mantissa) :
    0 < x.interval.low ∧ 0 < x.interval.denominator ∧
      (x.interval.high / x.interval.denominator : ℚ) = (x.mantissa + 1 / 2) * 2 ^ x.exponent := by
  -- the lower end is at most two quarters below the double
  have hgap : ∀ p : Prop, [Decidable p] → 0 < 4 * x.mantissa - if p then 1 else 2 := by
    intro p _
    split <;> omega
  unfold interval
  cases x.exponent with
  | ofNat e =>
    refine ⟨Nat.mul_pos (hgap _) (Nat.two_pow_pos e), Nat.succ_pos 3, ?_⟩
    dsimp only
    rw [Int.ofNat_eq_natCast, zpow_natCast, Nat.pow_eq]
    push_cast
    ring
  | negSucc e =>
    refine ⟨hgap _, Nat.mul_pos (Nat.succ_pos 3) (Nat.two_pow_pos _), ?_⟩
    dsimp only
    rw [zpow_negSucc, Nat.pow_eq]
    push_cast
    field_simp
    ring

/-- The shortest decimal is zero, or it is not, and is at most half a unit above the double. -/
theorem shortest_spec (x : Binary64) :
    x.shortest = ⟨0, 0⟩ ∨
      0 < x.shortest.digits ∧ x.shortest.toRat ≤ (x.mantissa + 1 / 2) * 2 ^ x.exponent := by
  unfold shortest
  split
  · exact Or.inl rfl
  · next hzero =>
    have hpos : 0 < x.mantissa := by
      unfold isZero at hzero
      exact Nat.pos_of_ne_zero (by simpa using hzero)
    obtain ⟨hlow, hden, hhigh⟩ := interval_spec hpos
    dsimp only
    cases h : searchFrom x.interval
        (leadingExponent x.interval.middle x.interval.denominator) 17 1 with
    | none => exact Or.inl rfl
    | some d =>
      have hwithin := within_of_searchFrom hlow hden h
      exact Or.inr ⟨hwithin.pos, hhigh ▸ hwithin.le⟩

end KernelLink.Binary64
