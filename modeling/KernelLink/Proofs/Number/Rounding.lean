import KernelLink.Number.Binary64
import Mathlib.Algebra.Order.Field.Power
import Mathlib.Data.Rat.Cast.Order
import Mathlib.Tactic.Linarith
import Mathlib.Tactic.Positivity
import Mathlib.Tactic.FieldSimp
import Mathlib.Tactic.Ring
/-!
# How far rounding goes

The nearest double to a ratio is at most half a unit away from it, and there is none only past the
greatest double by half a unit. A decimal is read in two roundings, so it may be refused although it
is a little smaller than that; but every decimal that stays a few units below is read.

Main definitions:
* `Binary64.toRat`: the magnitude of a double.
* `Binary64.Rounds`: what the nearest double is.
* `Binary64.Finite`: a double in range.
* `Binary64.safeLimit`: up to here every decimal is read.

Main results:
* `Binary64.nearest_eq`: the nearest double to a ratio.
* `Binary64.finite_ofDecimal`, `Binary64.exists_ofDecimal`: what a decimal is read as, and that it
  is.
-/
namespace KernelLink.Binary64

/-- The magnitude of a double as a rational number. -/
def toRat (x : Binary64) : ℚ := x.mantissa * 2 ^ x.exponent

variable {num den : Nat}

/-! ## Rounded quotients -/

/-- The rounded quotient is at most half a unit off. Stated with natural numbers, where doubling
makes up for the half. -/
theorem roundedQuotient_mul (num : Nat) (hden : 0 < den) :
    2 * num ≤ (2 * roundedQuotient num den + 1) * den ∧
      2 * roundedQuotient num den * den ≤ 2 * num + den := by
  have hnum : den * (num / den) + num % den = num := Nat.div_add_mod num den
  have hlt : num % den < den := Nat.mod_lt num hden
  unfold roundedQuotient
  generalize num / den = q at *
  generalize num % den = r at *
  subst hnum
  dsimp only
  split
  · constructor <;> nlinarith
  split
  · constructor <;> nlinarith
  · -- a tie goes to the even neighbour, down or up
    have : q % 2 = 0 ∨ q % 2 = 1 := by omega
    rcases this with h | h <;> rw [h] <;> constructor <;> nlinarith

theorem abs_roundedQuotient_sub_le (num : Nat) (hden : 0 < den) :
    |(roundedQuotient num den : ℚ) - num / den| ≤ 1 / 2 := by
  obtain ⟨hle, hge⟩ := roundedQuotient_mul num hden
  have hden' : (0 : ℚ) < den := Nat.cast_pos.mpr hden
  have hle' : (2 * num : ℚ) ≤ (2 * roundedQuotient num den + 1) * den := by exact_mod_cast hle
  have hge' : (2 * roundedQuotient num den * den : ℚ) ≤ 2 * num + den := by exact_mod_cast hge
  rw [abs_le]
  constructor
  · rw [neg_le_sub_iff_le_add, div_le_iff₀ hden']
    linarith
  · rw [sub_le_iff_le_add, ← sub_le_iff_le_add', le_div_iff₀ hden']
    linarith

/-- Rounding to a multiple of a power of two is at most half of that power off, whether the power is
scaled up or down. -/
theorem abs_scaledQuotient_sub_le (num : Nat) (hden : 0 < den) (e : ℤ) :
    |(scaledQuotient num den e : ℚ) * 2 ^ e - num / den| ≤ 2 ^ e / 2 := by
  have hpow : (0 : ℚ) < 2 ^ e := by positivity
  have h : |(scaledQuotient num den e : ℚ) - num / den / 2 ^ e| ≤ 1 / 2 := by
    unfold scaledQuotient
    cases e with
    | ofNat e =>
      have := abs_roundedQuotient_sub_le num (Nat.mul_pos hden (Nat.two_pow_pos e))
      dsimp only
      rw [div_div]
      simpa using this
    | negSucc e =>
      have := abs_roundedQuotient_sub_le (num * Nat.pow 2 (e + 1)) hden
      dsimp only
      rw [zpow_negSucc, div_inv_eq_mul, div_mul_eq_mul_div]
      simpa using this
  have hmul : |(scaledQuotient num den e : ℚ) - num / den / 2 ^ e| * 2 ^ e ≤ 1 / 2 * 2 ^ e :=
    mul_le_mul_of_nonneg_right h hpow.le
  rw [← abs_of_pos hpow, ← abs_mul, abs_of_pos hpow, sub_mul, div_mul_cancel₀ _ hpow.ne'] at hmul
  linarith

/-! ## The exponent -/

/-- The ratio lies between two powers of two, as the lengths of the numbers tell. -/
theorem ratio_bounds (hnum : 0 < num) (hden : 0 < den) :
    (2 : ℚ) ^ ((Nat.log2 num : ℤ) - Nat.log2 den - 1) < num / den ∧
      (num / den : ℚ) < 2 ^ ((Nat.log2 num : ℤ) - Nat.log2 den + 1) := by
  have hbounds : ∀ {n : Nat}, 0 < n →
      (2 : ℚ) ^ (Nat.log2 n : ℤ) ≤ n ∧ (n : ℚ) < 2 ^ ((Nat.log2 n : ℤ) + 1) := by
    intro n hn
    constructor
    · exact_mod_cast Nat.log2_self_le hn.ne'
    · exact_mod_cast Nat.lt_log2_self (n := n)
  obtain ⟨hnum1, hnum2⟩ := hbounds hnum
  obtain ⟨hden1, hden2⟩ := hbounds hden
  have hden' : (0 : ℚ) < den := Nat.cast_pos.mpr hden
  have htwo : (2 : ℚ) ≠ 0 := two_ne_zero
  constructor
  · rw [lt_div_iff₀ hden']
    calc (2 : ℚ) ^ ((Nat.log2 num : ℤ) - Nat.log2 den - 1) * den
        < 2 ^ ((Nat.log2 num : ℤ) - Nat.log2 den - 1) * 2 ^ ((Nat.log2 den : ℤ) + 1) :=
          mul_lt_mul_of_pos_left hden2 (by positivity)
      _ = 2 ^ (Nat.log2 num : ℤ) := by rw [← zpow_add₀ htwo]; congr 1; ring
      _ ≤ num := hnum1
  · rw [div_lt_iff₀ hden']
    calc (num : ℚ) < 2 ^ ((Nat.log2 num : ℤ) + 1) := hnum2
      _ = 2 ^ ((Nat.log2 num : ℤ) - Nat.log2 den + 1) * 2 ^ (Nat.log2 den : ℤ) := by
          rw [← zpow_add₀ htwo]; congr 1; ring
      _ ≤ 2 ^ ((Nat.log2 num : ℤ) - Nat.log2 den + 1) * den :=
          mul_le_mul_of_nonneg_left hden1 (by positivity)

/-- The estimate is tested by comparing the ratio with a power of two. -/
theorem exponentOf_eq (num : Nat) (hden : 0 < den) :
    exponentOf num den =
      let guess := (Nat.log2 num : ℤ) - Nat.log2 den - 52
      max (if (2 : ℚ) ^ (guess + 52) ≤ num / den then guess else guess - 1) (-1074) := by
  have hden' : (0 : ℚ) < den := Nat.cast_pos.mpr hden
  unfold exponentOf
  dsimp only
  generalize (Nat.log2 num : ℤ) - Nat.log2 den - 52 = guess
  cases guess with
  | ofNat e =>
    have hpow : (2 : ℚ) ^ (Int.ofNat e + 52) = 2 ^ (e + 52) := zpow_natCast 2 (e + 52)
    have hreached : (2 : ℚ) ^ (e + 52) ≤ num / den ↔ den * Nat.pow 2 (e + 52) ≤ num := by
      rw [le_div_iff₀ hden', mul_comm, Nat.pow_eq]
      norm_cast
    simp only [hpow, hreached, decide_eq_true_iff]
  | negSucc e =>
    have hpow : (2 : ℚ) ^ (Int.negSucc e + 52) = 2 ^ 52 / 2 ^ (e + 1) := by
      rw [zpow_add₀ two_ne_zero, zpow_negSucc, inv_mul_eq_div]
      rfl
    have hreached : (2 : ℚ) ^ 52 / 2 ^ (e + 1) ≤ num / den ↔
        den * Nat.pow 2 52 ≤ num * Nat.pow 2 (e + 1) := by
      rw [le_div_iff₀ hden', div_mul_eq_mul_div, div_le_iff₀ (by positivity), mul_comm,
        Nat.pow_eq, Nat.pow_eq]
      norm_cast
    simp only [hpow, hreached, decide_eq_true_iff]

/-- Before it is bounded below, the exponent gives the ratio 53 binary digits. -/
theorem exponentOf_spec (hnum : 0 < num) (hden : 0 < den) :
    ∃ e : ℤ, exponentOf num den = max e (-1074) ∧
      (2 : ℚ) ^ (e + 52) ≤ num / den ∧ (num / den : ℚ) < 2 ^ (e + 53) := by
  obtain ⟨hlow, hhigh⟩ := ratio_bounds hnum hden
  refine ⟨_, exponentOf_eq num hden, ?_⟩
  generalize hguess : (Nat.log2 num : ℤ) - Nat.log2 den - 52 = guess
  rw [show (Nat.log2 num : ℤ) - Nat.log2 den - 1 = guess + 51 by omega] at hlow
  rw [show (Nat.log2 num : ℤ) - Nat.log2 den + 1 = guess + 53 by omega] at hhigh
  -- the guess is right, or too large by one
  split
  · next hreached => exact ⟨hreached, hhigh⟩
  · next hreached =>
    rw [show guess - 1 + 52 = guess + 51 by omega, show guess - 1 + 53 = guess + 52 by omega]
    exact ⟨hlow.le, lt_of_not_ge hreached⟩

/-! ## The nearest double -/

/-- The mantissa `m` and the exponent `e` are those of the double nearest to the magnitude `r`. -/
structure Rounds (r : ℚ) (m : Nat) (e : ℤ) : Prop where
  /-- The mantissa has at most 53 bits. -/
  mantissa : m < 2 ^ 53
  /-- So has the magnitude before the point. -/
  below : r < 2 ^ (e + 53)
  /-- The error is at most half a unit, in proportion to the magnitude. -/
  near : -1074 < e → |(m : ℚ) * 2 ^ e - r| ≤ r / 2 ^ 53
  /-- A smaller exponent would have given a mantissa of at least 53 bits. -/
  least : -1074 < e → (2 ^ 54 - 1) * (2 : ℚ) ^ (e - 2) ≤ r

/-- Rounding at the exponent of the ratio, when the mantissa is not carried. -/
theorem rounds_scaled (hnum : 0 < num) (hden : 0 < den)
    (hm : scaledQuotient num den (exponentOf num den) < 2 ^ 53) :
    Rounds (num / den) (scaledQuotient num den (exponentOf num den)) (exponentOf num den) := by
  have herror := abs_scaledQuotient_sub_le num hden (exponentOf num den)
  obtain ⟨e, he, hlow, hhigh⟩ := exponentOf_spec hnum hden
  -- above the least exponent there are 53 digits, so half a unit is a fixed part of the ratio
  have heq : -1074 < exponentOf num den → exponentOf num den = e := by omega
  refine ⟨hm, hhigh.trans_le (zpow_le_zpow_right₀ one_le_two (by omega)), fun h => ?_, fun h => ?_⟩
  · rw [heq h] at herror ⊢
    refine herror.trans ?_
    rw [zpow_add₀ two_ne_zero] at hlow
    norm_num at hlow ⊢
    linarith
  · rw [heq h, zpow_sub₀ two_ne_zero]
    rw [zpow_add₀ two_ne_zero] at hlow
    have hpow : (0 : ℚ) < 2 ^ e := by positivity
    norm_num at hlow ⊢
    linarith

/-- The mantissa is at most one unit too large, which is when it was carried. -/
theorem scaledQuotient_le (hnum : 0 < num) (hden : 0 < den) :
    scaledQuotient num den (exponentOf num den) ≤ 2 ^ 53 := by
  obtain ⟨e, he, -, hhigh⟩ := exponentOf_spec hnum hden
  have herror := (abs_le.mp (abs_scaledQuotient_sub_le num hden (exponentOf num den))).2
  have hle : (2 : ℚ) ^ (e + 53) ≤ 2 ^ exponentOf num den * 2 ^ 53 := by
    rw [← zpow_natCast, ← zpow_add₀ two_ne_zero]
    exact zpow_le_zpow_right₀ one_le_two (by push_cast; omega)
  have hpow : (0 : ℚ) < 2 ^ exponentOf num den := by positivity
  have hmul : (scaledQuotient num den (exponentOf num den) : ℚ) * 2 ^ exponentOf num den <
      (2 ^ 53 + 1) * 2 ^ exponentOf num den := by linarith
  have hlt : (scaledQuotient num den (exponentOf num den) : ℚ) < 2 ^ 53 + 1 :=
    lt_of_mul_lt_mul_right hmul hpow.le
  exact Nat.lt_succ_iff.mp (by exact_mod_cast hlt)

/-- Rounding when the mantissa is carried: it is halved exactly, and the exponent makes up for it.
-/
theorem rounds_carried (hnum : 0 < num) (hden : 0 < den)
    (hm : scaledQuotient num den (exponentOf num den) = 2 ^ 53) :
    Rounds (num / den) (2 ^ 52) (exponentOf num den + 1) := by
  obtain ⟨e, he, -, hhigh⟩ := exponentOf_spec hnum hden
  have herror := abs_scaledQuotient_sub_le num hden (exponentOf num den)
  have hpow : (0 : ℚ) < 2 ^ exponentOf num den := by positivity
  have hhigh' : (num / den : ℚ) < 2 ^ (exponentOf num den + 1 + 53) :=
    hhigh.trans_le (zpow_le_zpow_right₀ one_le_two (by omega))
  rw [hm] at herror
  -- the carried significand is half as large at twice the scale
  have hsame : ((2 ^ 52 : ℕ) : ℚ) * 2 ^ (exponentOf num den + 1) =
      ((2 ^ 53 : ℕ) : ℚ) * 2 ^ exponentOf num den := by
    rw [zpow_add_one₀ two_ne_zero]
    push_cast
    ring
  have hlow := (abs_le.mp herror).2
  push_cast at hlow
  refine ⟨by norm_num, hhigh', fun _ => ?_, fun _ => ?_⟩
  · rw [hsame]
    refine herror.trans ?_
    linarith
  · have hshift : exponentOf num den + 1 - 2 = exponentOf num den - 1 := by omega
    rw [hshift, zpow_sub_one₀ two_ne_zero]
    linarith

/-- What the nearest double to a ratio is: a rounded mantissa and its exponent, unless the exponent
is too large. A mantissa that was carried is one of the two cases. -/
theorem nearest_eq (hnum : 0 < num) (hden : 0 < den) :
    ∃ m e, Rounds (num / den) m e ∧
      nearest num den =
        if 971 < e then none else if m = 0 then some zero else some ⟨false, m, e⟩ := by
  unfold nearest
  rw [if_neg (by omega)]
  simp only [Nat.pow_eq]
  by_cases hm : scaledQuotient num den (exponentOf num den) = 2 ^ 53
  · rw [if_pos hm]
    exact ⟨_, _, rounds_carried hnum hden hm, rfl⟩
  · rw [if_neg hm]
    exact ⟨_, _, rounds_scaled hnum hden (lt_of_le_of_ne (scaledQuotient_le hnum hden) hm), rfl⟩

/-- A double in range: its mantissa has at most 53 bits, and its exponent is not too large. -/
structure Finite (x : Binary64) : Prop where
  /-- The mantissa. -/
  mantissa : x.mantissa < 2 ^ 53
  /-- The exponent. -/
  exponent : x.exponent ≤ 971

theorem finite_zero : zero.Finite := ⟨by decide, by decide⟩

variable {x : Binary64}

/-- The nearest double is in range, if there is one: what is too large has none. -/
theorem finite_nearest (h : nearest num den = some x) : x.Finite := by
  by_cases hzero : num = 0 ∨ den = 0
  · rw [nearest, if_pos hzero] at h
    exact Option.some.inj h ▸ finite_zero
  obtain ⟨hnum, hden⟩ : 0 < num ∧ 0 < den := by omega
  obtain ⟨m, e, hround, heq⟩ := nearest_eq hnum hden
  rw [heq] at h
  split at h
  · exact nomatch h
  · next he =>
    split at h
    · exact Option.some.inj h ▸ finite_zero
    · exact Option.some.inj h ▸ ⟨hround.mantissa, not_lt.mp he⟩

/-- The nearest double to a ratio that is not below one is at most half a unit above it. -/
theorem toRat_nearest_le (hden : 0 < den) (hle : den ≤ num) (h : nearest num den = some x) :
    x.toRat ≤ num / den * (1 + 1 / 2 ^ 53) := by
  obtain ⟨m, e, hround, heq⟩ := nearest_eq (hden.trans_le hle) hden
  have hden' : (0 : ℚ) < den := Nat.cast_pos.mpr hden
  have hone : (1 : ℚ) ≤ num / den := by
    rw [le_div_iff₀ hden', one_mul]
    exact_mod_cast hle
  -- a quotient of at least one is normal, so the error is relative to it
  have he : -1074 < e := by
    have hlt := hone.trans_lt hround.below
    rw [one_lt_zpow_iff_right₀ (by norm_num)] at hlt
    omega
  have hnear := (abs_le.mp (hround.near he)).2
  rw [heq] at h
  split at h
  · exact nomatch h
  split at h
  · rw [← Option.some.inj h]
    unfold toRat zero
    rw [Nat.cast_zero, zero_mul]
    positivity
  · rw [← Option.some.inj h]
    unfold toRat
    linarith

/-- Half a unit past the greatest double. -/
def overflowLimit : ℚ := (2 ^ 54 - 1) * 2 ^ (970 : ℤ)

/-- There is no nearest double only past the greatest one, at least half a unit past it. -/
theorem le_of_nearest_eq_none (h : nearest num den = none) : overflowLimit ≤ num / den := by
  by_cases hzero : num = 0 ∨ den = 0
  · rw [nearest, if_pos hzero] at h
    exact nomatch h
  obtain ⟨hnum, hden⟩ : 0 < num ∧ 0 < den := by omega
  obtain ⟨m, e, hround, heq⟩ := nearest_eq hnum hden
  rw [heq] at h
  have he : 971 < e := by
    by_contra he
    rw [if_neg he] at h
    split at h
    · exact nomatch h
    · exact nomatch h
  have hpow : (2 : ℚ) ^ (970 : ℤ) ≤ 2 ^ (e - 2) := zpow_le_zpow_right₀ one_le_two (by omega)
  exact (mul_le_mul_of_nonneg_left hpow (by norm_num)).trans (hround.least (by omega))

/-! ## Products and quotients -/

/-- The ratio of a double is its magnitude, whether the exponent is in the one part of it or in the
other. -/
theorem ratio_eq (x : Binary64) : (x.ratio.1 / x.ratio.2 : ℚ) = x.toRat := by
  unfold ratio toRat
  cases x.exponent with
  | ofNat e =>
    dsimp only
    rw [Nat.cast_one, div_one, Nat.cast_mul, Nat.pow_eq, Nat.cast_pow]
    exact congrArg _ (zpow_natCast (2 : ℚ) e).symm
  | negSucc e =>
    dsimp only
    rw [zpow_negSucc, Nat.pow_eq, Nat.cast_pow, div_eq_mul_inv]
    rfl

theorem toRat_nonneg (x : Binary64) : 0 ≤ x.toRat := by
  unfold toRat
  positivity

/-- Two magnitudes have no product only if it is past the greatest double. -/
theorem le_of_mul_eq_none {y : Binary64} (h : x.mul y = none) :
    overflowLimit ≤ x.toRat * y.toRat := by
  rw [← ratio_eq x, ← ratio_eq y, div_mul_div_comm, ← Nat.cast_mul, ← Nat.cast_mul]
  exact le_of_nearest_eq_none h

/-- A double that is taken instead of none is in range if both are. -/
theorem finite_getD (h : x.Finite) {y : Option Binary64} (hy : ∀ z, y = some z → z.Finite) :
    (y.getD x).Finite := by
  cases y with
  | none => exact h
  | some z => exact hy z rfl

theorem finite_ofNat (n : Nat) : (ofNat n).Finite :=
  finite_getD finite_zero fun _ => finite_nearest

/-- Dividing by powers of ten stays in range. Induction on the power, which is taken off in large
steps. -/
theorem finite_divPowerOfTen (h : x.Finite) (k : Nat) : (x.divPowerOfTen k).Finite := by
  induction k using Nat.strongRecOn generalizing x with
  | ind k ih =>
    unfold divPowerOfTen
    split
    · exact finite_getD finite_zero fun _ => finite_nearest
    split
    · exact h
    · exact ih (k - 308) (by omega) (finite_getD finite_zero fun _ => finite_nearest)

/-- The double nearest to a natural number is at most half a unit above it. -/
theorem toRat_ofNat_le (n : Nat) : (ofNat n).toRat ≤ n * (1 + 1 / 2 ^ 53) := by
  unfold ofNat
  rcases h : nearest n 1 with _ | x
  · show zero.toRat ≤ _
    unfold toRat zero
    rw [Nat.cast_zero, zero_mul]
    positivity
  rcases Nat.eq_zero_or_pos n with rfl | hn
  · rw [← Option.some.inj h, Nat.cast_zero, zero_mul]
    exact le_of_eq (zero_mul _)
  · have hle := toRat_nearest_le Nat.one_pos hn h
    rwa [Nat.cast_one, div_one] at hle

/-! ## Decimals -/

/-- Up to here every decimal is read as a double, whatever its two roundings do. -/
def safeLimit : ℚ := (2 ^ 53 - 4) * 2 ^ (971 : ℤ)

/-- A number within the safe limit may be rounded twice and is still not too large. -/
theorem safeLimit_mul_lt : safeLimit * (1 + 1 / 2 ^ 53) ^ 2 < overflowLimit := by
  have hpow : (0 : ℚ) < 2 ^ (970 : ℤ) := by positivity
  unfold safeLimit overflowLimit
  rw [show (971 : ℤ) = 970 + 1 from rfl, zpow_add_one₀ two_ne_zero]
  generalize (2 : ℚ) ^ (970 : ℤ) = unit at hpow
  linarith

theorem safeLimit_lt_pow : safeLimit < 10 ^ 309 := by
  have hpow : (2 ^ 53 - 4) * 2 ^ 971 < 10 ^ 309 := by decide +kernel
  unfold safeLimit
  rw [show (2 : ℚ) ^ (971 : ℤ) = (2 : ℚ) ^ 971 from zpow_natCast 2 971]
  have hcast := Nat.cast_lt (α := ℚ).mpr hpow
  rw [Nat.cast_mul, Nat.cast_pow, Nat.cast_pow] at hcast
  refine lt_of_eq_of_lt ?_ hcast
  norm_num

/-- The limit is above a power of two that the numbers with few digits in front of the point stay
below. -/
theorem pow_le_safeLimit : (2 : ℚ) ^ (1000 : ℤ) ≤ safeLimit := by
  have hpow : (0 : ℚ) < 2 ^ (971 : ℤ) := by positivity
  unfold safeLimit
  rw [show (1000 : ℤ) = 29 + 971 from rfl, zpow_add₀ two_ne_zero]
  exact mul_le_mul_of_nonneg_right (by norm_num) hpow.le

/-- Half a unit above a double is not too large, unless the double is one of the four greatest. -/
theorem half_above_le_safeLimit (h : x.Finite)
    (hfour : x.exponent ≠ 971 ∨ x.mantissa + 5 ≤ 2 ^ 53) :
    (x.mantissa + 1 / 2) * (2 : ℚ) ^ x.exponent ≤ safeLimit := by
  have hpow : (0 : ℚ) < 2 ^ (970 : ℤ) := by positivity
  have hmantissa : (x.mantissa : ℚ) + 1 ≤ 2 ^ 53 := by exact_mod_cast h.mantissa
  have hlimit : safeLimit = (2 ^ 53 - 4) * (2 ^ (970 : ℤ) * 2) :=
    congrArg _ (zpow_add_one₀ two_ne_zero 970)
  by_cases he : x.exponent = 971
  · have hsmall : (x.mantissa : ℚ) + 5 ≤ 2 ^ 53 := by
      exact_mod_cast hfour.resolve_left (not_not.mpr he)
    rw [he]
    exact mul_le_mul_of_nonneg_right (by linarith) (by positivity)
  · have hle : (2 : ℚ) ^ x.exponent ≤ 2 ^ (970 : ℤ) :=
      zpow_le_zpow_right₀ one_le_two (by have := h.exponent; omega)
    calc (x.mantissa + 1 / 2) * (2 : ℚ) ^ x.exponent ≤ 2 ^ 53 * 2 ^ (970 : ℤ) :=
          mul_le_mul (by linarith) hle (by positivity) (by positivity)
      _ ≤ safeLimit := by
          rw [hlimit]
          generalize (2 : ℚ) ^ (970 : ℤ) = unit at hpow
          linarith

variable {k : Nat} {p : ℤ}

/-- A decimal is read as a double in range, by whichever of the ways it is scaled. -/
theorem finite_ofDecimal (h : ofDecimal k p = some x) : x.Finite := by
  unfold ofDecimal at h
  dsimp only at h
  split at h
  · split at h
    · exact finite_nearest h
    split at h
    · exact Option.some.inj h ▸ finite_ofNat k
    · exact nomatch h
  · exact Option.some.inj h ▸ finite_divPowerOfTen (finite_ofNat k) _

/-- A power of ten that a decimal is scaled by is not too large, unless the decimal is. -/
theorem power_le (hk : 0 < k) {e : Nat} (h : (k : ℚ) * 10 ^ e ≤ safeLimit) : e ≤ 308 := by
  by_contra he
  have hpow : (10 : ℚ) ^ 309 ≤ 10 ^ e := pow_le_pow_right₀ (by norm_num) (by omega)
  have hone : (1 : ℚ) ≤ k := by exact_mod_cast hk
  have hle : (10 : ℚ) ^ e ≤ k * 10 ^ e := le_mul_of_one_le_left (by positivity) hone
  exact absurd (hpow.trans (hle.trans h)) (not_le_of_gt safeLimit_lt_pow)

/-- A decimal that is not too large is read as a double. -/
theorem exists_ofDecimal (h : (k : ℚ) * 10 ^ p ≤ safeLimit) : ∃ x, ofDecimal k p = some x := by
  cases p with
  | negSucc e => exact ⟨_, rfl⟩
  | ofNat e =>
    rw [Int.ofNat_eq_natCast, zpow_natCast] at h
    unfold ofDecimal
    dsimp only
    by_cases he : e ≤ 308
    · rw [if_pos he]
      -- each of the two factors is at most half a unit too large
      have hten : (powerOfTen e).toRat ≤ 10 ^ e * (1 + 1 / 2 ^ 53) := by
        have hle := toRat_ofNat_le (Nat.pow 10 e)
        rwa [Nat.pow_eq, Nat.cast_pow] at hle
      have hprod : (ofNat k).toRat * (powerOfTen e).toRat ≤
          k * (1 + 1 / 2 ^ 53) * (10 ^ e * (1 + 1 / 2 ^ 53)) :=
        mul_le_mul (toRat_ofNat_le k) hten (toRat_nonneg _) (by positivity)
      have hsafe : k * 10 ^ e * (1 + 1 / 2 ^ 53) ^ 2 ≤ safeLimit * (1 + 1 / 2 ^ 53) ^ 2 :=
        mul_le_mul_of_nonneg_right h (by positivity)
      cases hmul : (ofNat k).mul (powerOfTen e) with
      | some x => exact ⟨x, rfl⟩
      | none =>
        have hover := le_of_mul_eq_none hmul
        have hlimit := safeLimit_mul_lt
        exact absurd hover (not_le_of_gt (by linarith))
    · -- only zero is not too large with such a power of ten
      rw [if_neg he]
      have hk : ¬ 0 < k := fun hk => he (power_le hk h)
      obtain rfl : k = 0 := by omega
      exact ⟨_, if_pos rfl⟩

end KernelLink.Binary64
