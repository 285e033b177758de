import KernelLink.Proofs.Json.Spelled
import KernelLink.Proofs.Number.Shortest
/-!
# Doubles are read

What is written for a double in range is the spelling of a number, and it has a value. Plain
notation and a negative exponent stand for little, whatever digits are dropped. With a positive
exponent the digits stand for the shortest decimal, which is at most half a unit above the double:
that is not too large but for the four greatest doubles, and these are read as well.

Main definitions:
* `Json.plainNumeral`, `Json.scientificNumeral`: digits as they are spelled.
* `Binary64.numeral`: a double as it is spelled in documents.

Main results:
* `Json.toRat_joinFraction_le`: what joined digits stand for.
* `Binary64.chars_numeral`, `Binary64.wellFormed_numeral`: this is how a double is written.
* `Binary64.value?_numeral`: every double in range has a value as it is spelled.
-/
namespace KernelLink
namespace Json

open Text.Utf8 (encode encode_append)
open Binary64 (safeLimit ofDecimal)

/-! ## Joined digits -/

/-- The magnitude of joined digits. -/
def Digits.toRat (d : Digits) : ℚ := d.kept * 10 ^ d.power

/-- Digits before the point are kept as far as a machine word holds them, and the power stands for
the others. -/
theorem joinWhole_bounds {k : Nat} (hk : k ≤ wordLimit) (bs : List UInt8) :
    (Digits.joinWhole k bs).kept ≤ wordLimit ∧ (Digits.joinWhole k bs).power ≤ bs.length := by
  induction bs generalizing k with
  | nil => exact ⟨hk, le_refl 0⟩
  | cons b bs ih =>
    rw [Digits.joinWhole]
    split
    · exact ⟨hk, le_refl _⟩
    · next hle =>
      obtain ⟨hkept, hpower⟩ := ih (not_lt.mp hle)
      exact ⟨hkept, hpower.trans (by simp)⟩

/-- Digits after the point lower the power, and those that no longer fit a word are dropped. -/
theorem joinFraction_bounds {d : Digits} (hd : d.kept ≤ wordLimit) (bs : List UInt8) :
    (d.joinFraction bs).kept ≤ wordLimit ∧ (d.joinFraction bs).power ≤ d.power := by
  induction bs generalizing d with
  | nil => exact ⟨hd, le_refl _⟩
  | cons b bs ih =>
    rw [Digits.joinFraction]
    split
    · exact ⟨hd, le_refl _⟩
    · next hle =>
      obtain ⟨hkept, hpower⟩ := ih (d := ⟨d.kept * 10 + digitValue b, d.power - 1⟩) (not_lt.mp hle)
      exact ⟨hkept, hpower.trans (by show d.power - 1 ≤ d.power; omega)⟩

/-- Digits behind a number make it at least as great as zeros would. -/
theorem mul_pow_le_decimalFrom (n : Nat) (bs : List UInt8) :
    n * 10 ^ bs.length ≤ decimalFrom n bs := by
  induction bs generalizing n with
  | nil => exact (Nat.mul_one n).le
  | cons b bs ih =>
    have hle := ih (n * 10 + digitValue b)
    show n * 10 ^ (bs.length + 1) ≤ decimalFrom (n * 10 + digitValue b) bs
    calc n * 10 ^ (bs.length + 1) = n * 10 * 10 ^ bs.length := by ring
      _ ≤ (n * 10 + digitValue b) * 10 ^ bs.length := Nat.mul_le_mul_right _ (Nat.le_add_right _ _)
      _ ≤ _ := hle

/-- Digits after the point that are dropped make the magnitude smaller, never greater. Induction on
the digits: each is joined, or it and all behind it are dropped. -/
theorem toRat_joinFraction_le (d : Digits) (bs : List UInt8) :
    (d.joinFraction bs).toRat ≤ decimalFrom d.kept bs * 10 ^ (d.power - bs.length) := by
  induction bs generalizing d with
  | nil =>
    show d.toRat ≤ d.kept * 10 ^ (d.power - (0 : ℕ))
    rw [Nat.cast_zero, sub_zero]
    rfl
  | cons b bs ih =>
    rw [Digits.joinFraction]
    split
    · -- the digits that are dropped count as zeros
      have hle : (d.kept * 10 ^ (b :: bs).length : ℚ) ≤ decimalFrom d.kept (b :: bs) := by
        exact_mod_cast mul_pow_le_decimalFrom d.kept (b :: bs)
      unfold Digits.toRat
      rw [zpow_sub₀ (by norm_num), mul_div_assoc', le_div_iff₀ (by positivity), zpow_natCast]
      calc (d.kept * 10 ^ d.power * 10 ^ (b :: bs).length : ℚ)
          = d.kept * 10 ^ (b :: bs).length * 10 ^ d.power := by ring
        _ ≤ _ := mul_le_mul_of_nonneg_right hle (by positivity)
    · refine (ih ⟨d.kept * 10 + digitValue b, d.power - 1⟩).trans (le_of_eq ?_)
      show _ * (10 : ℚ) ^ (d.power - 1 - bs.length) =
        decimalFrom (d.kept * 10 + digitValue b) bs * _
      rw [List.length_cons, Nat.cast_succ, sub_sub, add_comm (1 : ℤ)]

/-- A natural number is what its digits stand for. Induction on the number, which is ten times a
smaller one and a last digit. -/
theorem decimalFrom_digitBytes (n : Nat) : decimalFrom 0 (digitBytes n) = n := by
  induction n using Nat.strongRecOn with
  | ind n ih =>
    rw [digitBytes_eq]
    split
    · next h =>
      show 0 * 10 + digitValue (UInt8.ofNat (48 + n)) = n
      rw [digitValue_ofNat h, Nat.zero_mul, Nat.zero_add]
    · next h =>
      show List.foldl _ 0 (digitBytes (n / 10) ++ [UInt8.ofNat (48 + n % 10)]) = n
      rw [List.foldl_append]
      show decimalFrom 0 (digitBytes (n / 10)) * 10 + digitValue (UInt8.ofNat (48 + n % 10)) = n
      rw [ih (n / 10) (by omega), digitValue_ofNat (Nat.mod_lt n (by omega))]
      exact Nat.div_add_mod' n 10

/-- A number above zero has a first digit above zero, in characters as in bytes. -/
theorem toDigits_head {n : Nat} (hn : 0 < n) :
    ∃ c cs, Nat.toDigits 10 n = c :: cs ∧ c ≠ '0' := by
  obtain ⟨c, cs, hcs⟩ := List.exists_cons_of_ne_nil (Nat.toDigits_ne_nil (b := 10) (n := n))
  obtain ⟨b, s, hbytes, hb⟩ := head?_digitBytes hn
  refine ⟨c, cs, hcs, ?_⟩
  rintro rfl
  unfold digitBytes at hbytes
  rw [hcs, encode_cons_ascii (by decide)] at hbytes
  obtain ⟨rfl, -⟩ := List.cons.inj hbytes
  exact hb (by decide)

/-! ## Small decimals -/

/-- Digits that stand for a number within the safe limit are rounded to a double. -/
theorem double?_of_le (negative : Bool) {d : Digits} (h : d.toRat ≤ safeLimit) :
    ∃ v, Numeral.double? negative d = some v := by
  obtain ⟨x, hx⟩ := Binary64.exists_ofDecimal h
  unfold Numeral.double?
  rw [hx]
  exact ⟨_, rfl⟩

/-- Digits that a machine word holds, scaled by a small power, are read as a double. -/
theorem double?_small (negative : Bool) {d : Digits} (hkept : d.kept ≤ wordLimit)
    (hpower : d.power ≤ 16) : ∃ v, Numeral.double? negative d = some v := by
  refine double?_of_le negative ?_
  have hpow : (10 : ℚ) ^ d.power ≤ 10 ^ 16 :=
    (zpow_le_zpow_right₀ (by norm_num) hpower).trans_eq (zpow_natCast 10 16)
  have hcast : (d.kept : ℚ) ≤ 2 ^ 64 := by
    exact_mod_cast hkept.trans (show wordLimit ≤ 2 ^ 64 by decide)
  have htwo : (2 : ℚ) ^ (128 : ℤ) ≤ 2 ^ (1000 : ℤ) := zpow_le_zpow_right₀ one_le_two (by decide)
  calc d.toRat ≤ 2 ^ 64 * 10 ^ 16 := mul_le_mul hcast hpow (by positivity) (by positivity)
    _ ≤ 2 ^ (128 : ℤ) := by norm_num
    _ ≤ safeLimit := htwo.trans Binary64.pow_le_safeLimit

/-! ## Doubles as they are spelled -/

/-- Digits with a point among them, or in front of them behind zeros. -/
def plainNumeral (negative : Bool) (digits : List Char) (lead : ℤ) : Numeral :=
  match lead with
  | .negSucc k => ⟨negative, ['0'], List.replicate k '0' ++ digits, none⟩
  | .ofNat k =>
    if digits.length ≤ k + 1 then
      ⟨negative, digits ++ List.replicate (k + 1 - digits.length) '0', ['0'], none⟩
    else ⟨negative, digits.take (k + 1), digits.drop (k + 1), none⟩

/-- A digit before the point, the others behind it, and an exponent with its sign. -/
def scientificNumeral (negative : Bool) (digits : List Char) (lead : ℤ) : Numeral :=
  ⟨negative, digits.take 1, digits.drop 1,
    some ⟨false, some (if lead < 0 then '-' else '+'), Nat.toDigits 10 lead.natAbs⟩⟩

variable {negative : Bool} {digits : List Char} {lead : ℤ}

/-- A number in plain notation is spelled as it is written: the sign, the digits with the point
among them, and zeros where there are none. -/
theorem plainNumeral_chars (hne : digits ≠ []) :
    (plainNumeral negative digits lead).chars =
      (if negative then ['-'] else []) ++ Binary64.documentLayout.plain digits lead := by
  unfold Numeral.chars Numeral.tail plainNumeral Binary64.Layout.plain
  cases lead with
  | negSucc k => simp [hne]
  | ofNat k =>
    dsimp only
    split
    · simp [Binary64.documentLayout]
    · next hlong =>
      have hdrop : digits.drop (k + 1) ≠ [] := by simp; omega
      simp [hdrop]

/-- So is one in scientific notation, with its point behind the first digit. -/
theorem scientificNumeral_chars (hne : digits ≠ []) :
    (scientificNumeral negative digits lead).chars =
      (if negative then ['-'] else []) ++ Binary64.documentLayout.scientific digits lead := by
  unfold Numeral.chars Numeral.tail scientificNumeral Binary64.Layout.scientific Exponent.chars
  rcases digits with _ | ⟨c, _ | ⟨d, cs⟩⟩
  · exact absurd rfl hne
  · by_cases hlead : lead < 0 <;> simp [hlead, Binary64.documentLayout]
  · by_cases hlead : lead < 0 <;> simp [hlead, Binary64.documentLayout]

/-- The digits begin with no zero, unless they are a single one that stands for nothing. -/
def Leading (digits : List Char) (lead : ℤ) : Prop :=
  digits.head? = some '0' → digits = ['0'] ∧ lead = 0

theorem isDigit_replicate (k : Nat) : ∀ c ∈ List.replicate k '0', c.isDigit = true := by
  intro c hc
  rw [List.eq_of_mem_replicate hc]
  rfl

/-- What is written in plain notation is well formed: there is a digit on both sides of the point,
and in front of it no zero but a single one. -/
theorem wellFormed_plainNumeral (hd : ∀ c ∈ digits, c.isDigit = true) (hne : digits ≠ [])
    (hlead : Leading digits lead) : (plainNumeral negative digits lead).WellFormed := by
  have hzero : ∀ c ∈ ['0'], c.isDigit = true := List.forall_mem_singleton.mpr (by decide)
  have hexponent : ∀ e : Exponent, none = some e → e.WellFormed := fun _ he => nomatch he
  unfold plainNumeral
  cases lead with
  | negSucc k =>
    exact ⟨List.cons_ne_nil _ _, hzero, fun _ => rfl,
      List.forall_mem_append.mpr ⟨isDigit_replicate k, hd⟩, hexponent⟩
  | ofNat k =>
    dsimp only
    split
    · -- a zero may lead only as the whole of the integer part, which `hlead` says
      refine ⟨List.append_ne_nil_of_left_ne_nil hne _,
        List.forall_mem_append.mpr ⟨hd, isDigit_replicate _⟩, fun hhead => ?_, hzero, hexponent⟩
      rw [List.head?_append_of_ne_nil _ hne] at hhead
      obtain ⟨rfl, hk⟩ := hlead hhead
      obtain rfl : k = 0 := Int.ofNat.inj hk
      rfl
    · next hlong =>
      refine ⟨by simp [hne], fun c hc => hd c (List.mem_of_mem_take hc), fun hhead => ?_,
        fun c hc => hd c (List.mem_of_mem_drop hc), hexponent⟩
      rw [List.head?_take, if_neg (Nat.succ_ne_zero k)] at hhead
      obtain ⟨rfl, -⟩ := hlead hhead
      exact absurd (Nat.succ_pos k) hlong

/-- So is what is written in scientific notation, since its first digit stands alone. -/
theorem wellFormed_scientificNumeral (hd : ∀ c ∈ digits, c.isDigit = true) (hne : digits ≠ []) :
    (scientificNumeral negative digits lead).WellFormed := by
  obtain ⟨c, cs, rfl⟩ := List.exists_cons_of_ne_nil hne
  refine ⟨List.cons_ne_nil _ _, fun d hdc => hd d (List.mem_of_mem_take hdc), fun hhead => ?_,
    fun d hdc => hd d (List.mem_of_mem_drop hdc), fun e he => ?_⟩
  · obtain rfl : c = '0' := Option.some.inj hhead
    rfl
  · obtain rfl := Option.some.inj he
    refine ⟨?_, Nat.toDigits_ne_nil, isDigit_toDigits _⟩
    by_cases hneg : lead < 0
    · simp [hneg]
    · simp [hneg]

/-! ## Their values -/

theorem length_encode_digits {cs : List Char} (h : ∀ c ∈ cs, c.isDigit = true) :
    (encode cs).length = cs.length := by
  rw [(encode_digits h).1, List.length_map]

/-- With few digits before the point and no exponent there is a value. -/
theorem value?_plain {n : Numeral} (hn : n.WellFormed) (hexponent : n.exponent = none)
    (hfraction : n.fraction ≠ []) (hlength : n.whole.length ≤ 16) : ∃ v, n.value? = some v := by
  obtain ⟨hkept, hpower⟩ := joinWhole_bounds (Nat.zero_le _) (encode n.whole)
  obtain ⟨hkept', hpower'⟩ := joinFraction_bounds hkept (encode n.fraction)
  rw [length_encode_digits hn.whole] at hpower
  unfold Numeral.value? Numeral.valueFrom
  rw [hexponent]
  dsimp only
  rw [if_neg hfraction]
  exact double?_small _ hkept' (by omega)

/-- An exponent with a minus stands for a power that is not positive. -/
theorem Exponent.le_of_power? {e : Exponent} {k : ℤ} (h : e.power? = some k)
    (hsign : e.sign = some '-') : k ≤ 0 := by
  unfold power? at h
  dsimp only at h
  split at h
  · exact nomatch h
  · have := Option.some.inj h
    omega

/-- So there is with an exponent that is negative: it makes the digits in front of the point
smaller, and these are at most sixteen. -/
theorem value?_falling {n : Numeral} {e : Exponent} (hn : n.WellFormed)
    (hexponent : n.exponent = some e) (hsign : e.sign = some '-') (hlength : n.whole.length ≤ 16) :
    ∃ v, n.value? = some v := by
  obtain ⟨hkept, hpower⟩ := joinWhole_bounds (Nat.zero_le _) (encode n.whole)
  obtain ⟨hkept', hpower'⟩ := joinFraction_bounds hkept (encode n.fraction)
  rw [length_encode_digits hn.whole] at hpower
  unfold Numeral.value? Numeral.valueFrom
  rw [hexponent]
  dsimp only
  unfold Numeral.scaled?
  split
  · next k hk =>
    refine double?_small _ hkept' ?_
    have hfalls := Exponent.le_of_power? hk hsign
    show _ + k ≤ 16
    omega
  · rw [if_neg fun h => h.2 hsign]
    exact ⟨_, rfl⟩

/-- One digit and a fraction stand for what all digits stand for, but for the place of the point. -/
theorem toRat_joined_le {c : Char} {cs : List Char} (h : ∀ d ∈ c :: cs, d.isDigit = true) :
    ((Digits.joinWhole 0 (encode [c])).joinFraction (encode cs)).toRat ≤
      decimalFrom 0 (encode (c :: cs)) * 10 ^ (-(cs.length : ℤ)) := by
  obtain ⟨hmap, hdigits⟩ := encode_digits h
  rw [List.map_cons] at hmap
  have hone : encode [c] = [UInt8.ofNat c.toNat] :=
    (encode_digits (List.forall_mem_singleton.mpr (h c List.mem_cons_self))).1
  have hcs : ∀ d ∈ cs, d.isDigit = true := fun d hd => h d (List.mem_cons_of_mem c hd)
  have hsmall : digitValue (UInt8.ofNat c.toNat) ≤ 9 :=
    digitValue_le (hdigits _ (hmap ▸ List.mem_cons_self))
  -- one digit fits, so nothing of the integer part is dropped
  have hwhole : Digits.joinWhole 0 (encode [c]) = ⟨digitValue (UInt8.ofNat c.toNat), 0⟩ := by
    rw [hone, Digits.joinWhole, if_neg (not_lt.mpr ?_), Nat.zero_mul, Nat.zero_add]
    · rfl
    · rw [Nat.zero_mul, Nat.zero_add]
      exact hsmall.trans (by decide)
  have hle := toRat_joinFraction_le ⟨digitValue (UInt8.ofNat c.toNat), 0⟩ (encode cs)
  rw [length_encode_digits hcs, zero_sub] at hle
  have hall : decimalFrom 0 (encode (c :: cs)) =
      decimalFrom (digitValue (UInt8.ofNat c.toNat)) (encode cs) := by
    rw [hmap, ← (encode_digits hcs).1]
    show decimalFrom (0 * 10 + _) _ = _
    rw [Nat.zero_mul, Nat.zero_add]
  rw [hwhole, hall]
  exact hle

/-- A number has at least the power of ten that its first digit stands for. -/
theorem pow_le_of_length {k : Nat} (hk : 0 < k) : 10 ^ ((Nat.toDigits 10 k).length - 1) ≤ k := by
  rcases Nat.eq_zero_or_pos ((Nat.toDigits 10 k).length - 1) with hone | hmore
  · rw [hone]
    exact hk
  · by_contra hlt
    have hshort := (Nat.length_toDigits_le_iff (by decide) hmore).mpr (not_le.mp hlt)
    omega

/-- The power of an exponent that is not negative and not too large. -/
theorem power?_rising {k : Nat} (hk : k ≤ 308) :
    Exponent.power? ⟨false, some '+', Nat.toDigits 10 k⟩ = some (k : ℤ) := by
  have hvalue : decimalFrom 0 (encode (Nat.toDigits 10 k)) = k := decimalFrom_digitBytes k
  unfold Exponent.power?
  dsimp only
  rw [hvalue, if_neg (not_lt.mpr (hk.trans (by decide))), if_neg (by decide)]

/-- Digits in front of an exponent that is not negative have a value, if what they stand for is not
too large. -/
theorem value?_rising {k lead : Nat} (hk : 0 < k)
    (h : (k : ℚ) * 10 ^ (lead - ((Nat.toDigits 10 k).length - 1 : ℕ) : ℤ) ≤ safeLimit) :
    ∃ v, (scientificNumeral negative (Nat.toDigits 10 k) lead).value? = some v := by
  rw [zpow_sub₀ (by norm_num), zpow_natCast, zpow_natCast] at h
  -- what the first digit stands for is not above the whole
  have hlead : lead ≤ 308 := by
    refine Binary64.power_le Nat.one_pos (le_trans ?_ h)
    have hcast : (10 : ℚ) ^ ((Nat.toDigits 10 k).length - 1) ≤ k := by
      exact_mod_cast pow_le_of_length hk
    rw [Nat.cast_one, one_mul, mul_div_assoc', le_div_iff₀ (by positivity), mul_comm]
    exact mul_le_mul_of_nonneg_right hcast (by positivity)
  have hdigits := isDigit_toDigits k
  have hall : decimalFrom 0 (encode (Nat.toDigits 10 k)) = k := decimalFrom_digitBytes k
  obtain ⟨c, cs, hcs⟩ := List.exists_cons_of_ne_nil (Nat.toDigits_ne_nil (b := 10) (n := k))
  rw [hcs] at h hdigits hall ⊢
  have hjoined := toRat_joined_le hdigits
  rw [hall, zpow_neg, zpow_natCast, ← div_eq_mul_inv] at hjoined
  have hsign : scientificNumeral negative (c :: cs) lead =
      ⟨negative, [c], cs, some ⟨false, some '+', Nat.toDigits 10 lead⟩⟩ := by
    unfold scientificNumeral
    rw [if_neg (by omega)]
    rfl
  rw [hsign]
  show ∃ v, Numeral.scaled? negative ((Digits.joinWhole 0 (encode [c])).joinFraction (encode cs))
    ⟨false, some '+', Nat.toDigits 10 lead⟩ = some v
  generalize (Digits.joinWhole 0 (encode [c])).joinFraction (encode cs) = d at hjoined
  unfold Numeral.scaled?
  rw [power?_rising hlead]
  -- the exponent moves the point back behind the last digit
  refine double?_of_le _ (le_trans ?_ h)
  calc (d.kept * 10 ^ (d.power + lead) : ℚ) = d.toRat * 10 ^ lead := by
        rw [zpow_add₀ (by norm_num), zpow_natCast, ← mul_assoc]
        rfl
    _ ≤ k / 10 ^ cs.length * 10 ^ lead := mul_le_mul_of_nonneg_right hjoined (by positivity)
    _ = k * (10 ^ lead / 10 ^ (List.length (c :: cs) - 1)) := by
        rw [List.length_cons, Nat.add_sub_cancel]
        ring

/-- In plain notation at most sixteen digits stand in front of the point, so all of them are kept.
-/
theorem length_whole_plainNumeral (h : lead ≤ 15) :
    (plainNumeral negative digits lead).whole.length ≤ 16 := by
  unfold plainNumeral
  cases lead with
  | negSucc k => exact Nat.succ_le_succ (Nat.zero_le 15)
  | ofNat k =>
    replace h : k ≤ 15 := Int.ofNat_le.mp h
    dsimp only
    split
    · simp
      omega
    · simp
      omega

/-- There is always a digit behind the point of a double in plain notation. -/
theorem fraction_plainNumeral (hne : digits ≠ []) :
    (plainNumeral negative digits lead).fraction ≠ [] := by
  unfold plainNumeral
  cases lead with
  | negSucc k => simp [hne]
  | ofNat k =>
    dsimp only
    split
    · exact List.cons_ne_nil _ _
    · simp
      omega

theorem exponent_plainNumeral : (plainNumeral negative digits lead).exponent = none := by
  unfold plainNumeral
  cases lead with
  | negSucc k => rfl
  | ofNat k =>
    dsimp only
    split
    · rfl
    · rfl

end Json

/-! ## Every double in range -/

open Json

namespace Binary64

/-- The power of ten that the leading digit stands for. -/
def Decimal.lead (d : Decimal) : ℤ := d.power + ((Nat.toDigits 10 d.digits).length : ℤ) - 1

variable {x : Binary64}

/-- A double as it is spelled in documents. -/
def numeral (x : Binary64) : Numeral :=
  if -5 ≤ x.shortest.lead ∧ x.shortest.lead ≤ 15 then
    plainNumeral x.negative (Nat.toDigits 10 x.shortest.digits) x.shortest.lead
  else scientificNumeral x.negative (Nat.toDigits 10 x.shortest.digits) x.shortest.lead

/-- This is how it is written, in whichever of the two notations is chosen for it. -/
theorem chars_numeral (x : Binary64) : x.numeral.chars = x.text.toList := by
  have htext : x.text.toList =
      (if x.negative then ['-'] else []) ++ documentLayout.magnitude x := String.toList_ofList
  have hmagnitude : documentLayout.magnitude x =
      if -5 ≤ x.shortest.lead ∧ x.shortest.lead ≤ 15 then
        documentLayout.plain (Nat.toDigits 10 x.shortest.digits) x.shortest.lead
      else documentLayout.scientific (Nat.toDigits 10 x.shortest.digits) x.shortest.lead := rfl
  rw [htext, hmagnitude]
  unfold numeral
  split
  · exact plainNumeral_chars Nat.toDigits_ne_nil
  · exact scientificNumeral_chars Nat.toDigits_ne_nil

/-- The shortest digits begin with no zero, unless the number is zero. -/
theorem leading_shortest (x : Binary64) :
    Leading (Nat.toDigits 10 x.shortest.digits) x.shortest.lead := by
  intro hhead
  rcases shortest_spec x with hzero | ⟨hpos, -⟩
  · rw [hzero]
    exact ⟨rfl, rfl⟩
  · obtain ⟨c, cs, hcs, hc⟩ := toDigits_head hpos
    rw [hcs] at hhead
    exact absurd (Option.some.inj hhead) hc

theorem wellFormed_numeral (x : Binary64) : x.numeral.WellFormed := by
  have hd := isDigit_toDigits x.shortest.digits
  unfold numeral
  split
  · exact wellFormed_plainNumeral hd Nat.toDigits_ne_nil (leading_shortest x)
  · exact wellFormed_scientificNumeral hd Nat.toDigits_ne_nil

/-- The four greatest doubles are read although half a unit above them may be too large. -/
theorem value?_greatest : ∀ negative, ∀ k < 4,
    (numeral ⟨negative, 2 ^ 53 - 1 - k, 971⟩).value?.isSome = true := by
  decide +kernel

/-- What is written with a positive exponent has a value, if half a unit above the double is not too
large. -/
theorem value?_large (hlead : 15 < x.shortest.lead)
    (h : (x.mantissa + 1 / 2) * (2 : ℚ) ^ x.exponent ≤ safeLimit) :
    ∃ v, (scientificNumeral x.negative (Nat.toDigits 10 x.shortest.digits)
      x.shortest.lead).value? = some v := by
  rcases shortest_spec x with hzero | ⟨hpos, hle⟩
  · -- zero is written plainly
    rw [hzero] at hlead
    exact absurd hlead (by decide)
  · obtain ⟨lead, hnat⟩ := Int.eq_ofNat_of_zero_le (show 0 ≤ x.shortest.lead by omega)
    have hpower : x.shortest.power =
        lead - ((Nat.toDigits 10 x.shortest.digits).length - 1 : ℕ) := by
      have hlength := Nat.length_toDigits_pos (b := 10) (n := x.shortest.digits)
      unfold Decimal.lead at hnat
      omega
    rw [hnat]
    refine value?_rising hpos ?_
    rw [← hpower]
    exact hle.trans h

/-- Every double in range has a value as it is spelled. The four greatest are tried one by one; all
others leave room for what rounding adds. -/
theorem value?_numeral (h : x.Finite) : ∃ v, x.numeral.value? = some v := by
  by_cases hfour : x.exponent = 971 ∧ 2 ^ 53 < x.mantissa + 5
  · -- one of the four greatest
    obtain ⟨negative, m, e⟩ := x
    obtain ⟨rfl, hm⟩ : e = 971 ∧ 2 ^ 53 < m + 5 := hfour
    have hlt : m < 2 ^ 53 := h.mantissa
    obtain ⟨k, hk, rfl⟩ : ∃ k < 4, m = 2 ^ 53 - 1 - k := ⟨2 ^ 53 - 1 - m, by omega, by omega⟩
    exact Option.isSome_iff_exists.mp (value?_greatest negative k hk)
  have hwell := wellFormed_numeral x
  unfold numeral at hwell ⊢
  split at hwell
  · next hplain =>
    rw [if_pos hplain]
    exact value?_plain hwell exponent_plainNumeral (fraction_plainNumeral Nat.toDigits_ne_nil)
      (length_whole_plainNumeral hplain.2)
  · next hplain =>
    rw [if_neg hplain]
    by_cases hneg : x.shortest.lead < 0
    · -- one digit before the point, and the exponent only makes the number smaller
      refine value?_falling hwell rfl (congrArg some (if_pos hneg)) ?_
      exact (List.length_take_le 1 _).trans (by decide)
    · exact value?_large (by omega) (half_above_le_safeLimit h (by omega))

end Binary64
end KernelLink
