import KernelLink.Proofs.Json.Tokens
/-!
# Numbers against the grammar

The reader takes the longest number that stands in front, and gives its value; it refuses the number
exactly if it has none. Each reader of a part is held to the part of the grammar that it reads.

Main definitions:
* `Json.Gives`: what reading a number gives, by the value that the grammar has for it.
* `Json.Numeral.Stops`: characters that cannot go on a number.

Main results:
* `Json.Numeral.WellFormed.gives`: what reading a number gives.
* `Json.numeral_of_number`: where a number is read one stands.
-/
namespace KernelLink
namespace Json

open Text.Utf8 (encode encode_append)

/-! ## Digits -/

/-- No digit stands in front. -/
def NoDigit (t : List Char) : Prop := ∀ b r, encode t = b :: r → isDigit b = false

theorem isDigit_lt {b : UInt8} (h : isDigit b = true) : b.toNat < 0x80 :=
  Nat.lt_of_le_of_lt (isDigit_le h) (by decide)

/-- A text as digits in front of something else. -/
theorem digits_split (s : List Char) :
    ∃ ds t, s = ds ++ t ∧ (∀ c ∈ ds, c.isDigit = true) ∧ NoDigit t := by
  induction s with
  | nil => exact ⟨[], [], rfl, fun _ h => (nomatch h), fun _ _ h => nomatch h⟩
  | cons c s ih =>
    by_cases hc : c.isDigit = true
    · obtain ⟨ds, t, hs, hds, ht⟩ := ih
      refine ⟨c :: ds, t, by rw [hs]; rfl, fun d hd => ?_, ht⟩
      rcases List.mem_cons.mp hd with rfl | hd
      · exact hc
      · exact hds d hd
    · refine ⟨[], c :: s, rfl, fun _ h => (nomatch h), fun b r hb => ?_⟩
      rw [Bool.eq_false_iff]
      intro hdigit
      obtain ⟨t, ht, -⟩ := encode_eq_cons hb (isDigit_lt hdigit)
      obtain ⟨rfl, -⟩ := List.cons.inj ht
      exact hc hdigit

/-- A digit in front is the first of some digits. -/
theorem digits_of_isDigit {s : List Char} {b : UInt8} {r : List UInt8} (h : encode s = b :: r)
    (hb : isDigit b = true) :
    ∃ ds t, s = ds ++ t ∧ ds ≠ [] ∧ (∀ c ∈ ds, c.isDigit = true) ∧ NoDigit t := by
  obtain ⟨ds, t, hs, hds, ht⟩ := digits_split s
  refine ⟨ds, t, hs, ?_, hds, ht⟩
  rintro rfl
  rw [hs] at h
  rw [ht b r h] at hb
  exact nomatch hb

/-- Digits have a byte in front that is one. -/
theorem encode_digits_cons {ds : List Char} (hds : ∀ c ∈ ds, c.isDigit = true) (hne : ds ≠ []) :
    ∃ b r, encode ds = b :: r ∧ isDigit b = true ∧ AreDigits r := by
  have hall := (encode_digits hds).2
  obtain ⟨b, r, hb⟩ := List.exists_cons_of_ne_nil (l := encode ds) fun h => hne (encode_eq_nil h)
  rw [hb] at hall
  exact ⟨b, r, hb, hall b List.mem_cons_self, fun d hd => hall d (List.mem_cons_of_mem b hd)⟩

/-! ## What reading a number gives -/

/-- A reading gives the value and leaves `t`; if there is no value it is refused. -/
def Gives (value : Option Number) (t : List Char) : Reading Number → Prop
  | .ok (v, r) => value = some v ∧ r = encode t
  | .error _ => value = none

/-- Rounding gives the value that the digits have as a double, if they have one. -/
theorem gives_floatOf (negative : Bool) (d : Digits) (t : List Char) :
    Gives (Numeral.double? negative d) t (floatOf negative d (encode t)) := by
  unfold floatOf Numeral.double?
  split
  · next x hx => exact ⟨by rw [hx]; rfl, rfl⟩
  · next hx =>
    show Option.map _ _ = none
    rw [hx]
    rfl

/-- A number without fraction and exponent has the value of its digits as an integer, if that fits a
word, and otherwise as a double. -/
theorem gives_wholeNumber (negative : Bool) (d : Digits) (t : List Char) :
    Gives (Numeral.integer? negative d) t (wholeNumber negative d (encode t)) := by
  unfold wholeNumber Numeral.integer?
  by_cases hpower : d.power ≠ 0
  · rw [if_pos hpower, if_pos hpower]
    exact gives_floatOf negative d t
  rw [if_neg hpower, if_neg hpower]
  cases negative with
  | false =>
    rw [if_pos Bool.false_ne_true, if_neg Bool.false_ne_true]
    exact ⟨rfl, rfl⟩
  | true =>
    rw [if_neg (not_not.mpr rfl), if_pos rfl]
    by_cases hkept : d.kept = 0 ∨ Nat.pow 2 63 < d.kept
    · rw [if_pos hkept, if_pos hkept]
      exact ⟨rfl, rfl⟩
    · rw [if_neg hkept, if_neg hkept]
      exact ⟨rfl, rfl⟩

/-- What is made of the digits of an exponent, which is `falling` if there is a minus sign before
them. -/
def raised (negative : Bool) (d : Digits) (falling : Bool) :
    Option Nat × List UInt8 → Reading Number
  | (some k, r) =>
    floatOf negative { d with power := if falling then d.power - k else d.power + k } r
  | (none, r) =>
    if d.kept ≠ 0 ∧ ¬ falling then stop .numberTooLarge r
    else .ok (.float { Binary64.zero with negative := negative }, r.dropWhile isDigit)

/-- It does not depend on which sign stood before the digits, but for the falling of the power. -/
theorem gives_raised (negative : Bool) (d : Digits) {e : Exponent} {t : List Char}
    (ht : NoDigit t) {b : UInt8} {r : List UInt8} (hbr : encode e.digits = b :: r)
    (hb : isDigit b = true) (hr : ∀ c ∈ r, isDigit c = true) {falling : Bool}
    (hfalling : falling = true ↔ e.sign = some '-') :
    Gives (Numeral.scaled? negative d e) t
      (raised negative d falling (exponentDigits (digitValue b) (r ++ encode t))) := by
  have hfirst : decimalFrom 0 (encode e.digits) = decimalFrom (digitValue b) r := by
    rw [hbr]
    show decimalFrom (0 * 10 + digitValue b) r = _
    rw [Nat.zero_mul, Nat.zero_add]
  have hsmall : digitValue b ≤ Nat.pow 2 31 - 1 := Nat.le_trans (digitValue_le hb) (by decide)
  unfold Numeral.scaled? Exponent.power?
  rcases exponentDigits_eq hr ht (digitValue b) hsmall with ⟨hle, hx⟩ | ⟨hlt, s, hx, hs⟩
  · -- up to the limit the digits are scaled
    rw [hx]
    dsimp only [raised]
    rw [hfirst, if_neg (Nat.not_lt_of_le hle)]
    have hpower : (if falling = true then d.power - (decimalFrom (digitValue b) r : Int)
        else d.power + (decimalFrom (digitValue b) r : Int)) =
        d.power + (if e.sign = some '-' then -(decimalFrom (digitValue b) r : Int)
          else decimalFrom (digitValue b) r) := by
      by_cases hsign : e.sign = some '-'
      · rw [if_pos (hfalling.mpr hsign), if_pos hsign]
        exact Int.sub_eq_add_neg
      · rw [if_neg fun h => hsign (hfalling.mp h), if_neg hsign]
    rw [hpower]
    exact gives_floatOf negative _ t
  · rw [hx]
    dsimp only [raised]
    rw [hfirst, if_pos hlt]
    by_cases hcond : d.kept ≠ 0 ∧ ¬ falling = true
    · rw [if_pos hcond, if_pos ⟨hcond.1, fun h => hcond.2 (hfalling.mpr h)⟩]
      exact rfl
    · rw [if_neg hcond, if_neg fun h => hcond ⟨h.1, fun hf => h.2 (hfalling.mp hf)⟩, hs]
      exact ⟨rfl, rfl⟩

/-- An exponent behind its sign scales the digits, and no byte behind it is read. -/
theorem gives_scaled (negative : Bool) (d : Digits) {e : Exponent} (he : e.WellFormed)
    {t : List Char} (ht : NoDigit t) :
    Gives (Numeral.scaled? negative d e) t
      (numberExponent negative d (encode (e.sign.toList ++ (e.digits ++ t)))) := by
  obtain ⟨b, r, hbr, hb, hr⟩ := encode_digits_cons he.digits he.nonempty
  have hplus : glyph b ≠ '+' := by rintro h; rw [isDigit, h] at hb; exact absurd hb (by decide)
  have hminus : glyph b ≠ '-' := by rintro h; rw [isDigit, h] at hb; exact absurd hb (by decide)
  have hsigns : glyph 43 = '+' ∧ glyph 45 ≠ '+' ∧ glyph 45 = '-' := by decide
  have hbytes : encode (e.digits ++ t) = b :: (r ++ encode t) := by
    rw [encode_append, hbr, List.cons_append]
  -- no sign, a plus or a minus: the digits behind it are read in the same way
  rcases he.sign with hsign | hsign | hsign
  · rw [hsign]
    show Gives _ t (numberExponent negative d (encode (e.digits ++ t)))
    rw [hbytes]
    simp only [numberExponent, if_neg hplus, if_neg hminus, if_pos hb]
    exact gives_raised negative d ht hbr hb hr (by rw [hsign]; simp)
  · rw [hsign]
    show Gives _ t (numberExponent negative d (encode ('+' :: (e.digits ++ t))))
    rw [encode_cons_ascii (by decide), hbytes]
    simp only [numberExponent, show UInt8.ofNat '+'.toNat = 43 from rfl, if_pos hsigns.1,
      if_pos hb]
    exact gives_raised negative d ht hbr hb hr (by rw [hsign]; simp)
  · rw [hsign]
    show Gives _ t (numberExponent negative d (encode ('-' :: (e.digits ++ t))))
    rw [encode_cons_ascii (by decide), hbytes]
    have hread : Gives (Numeral.scaled? negative d e) t (raised negative d true _) :=
      gives_raised negative d ht hbr hb hr (by rw [hsign]; simp)
    simp only [numberExponent, raised, show UInt8.ofNat '-'.toNat = 45 from rfl,
      if_neg hsigns.2.1, if_pos hsigns.2.2, if_pos hb, if_true, not_true, and_false,
      if_false] at hread ⊢
    exact hread

/-- Where an exponent is read one stands, with at least one digit, and as many as stand there. -/
theorem exponent_of_numberExponent {negative : Bool} {d : Digits} {s : List Char} {v : Number}
    {r : List UInt8} (h : numberExponent negative d (encode s) = .ok (v, r)) {c : Char}
    (hc : c = 'e' ∨ c = 'E') :
    ∃ (e : Exponent) (t : List Char), e.WellFormed ∧ NoDigit t ∧ c :: s = e.chars ++ t := by
  -- behind the sign there has to be a digit
  have hdigits : ∀ (sign : Option Char) {s' : List Char}, s = sign.toList ++ s' →
      (sign = none ∨ sign = some '+' ∨ sign = some '-') →
      (∃ b r, encode s' = b :: r ∧ isDigit b = true) →
      ∃ (e : Exponent) (t : List Char), e.WellFormed ∧ NoDigit t ∧ c :: s = e.chars ++ t := by
    intro sign s' hs hsign hstands
    obtain ⟨b, r, hbr, hb⟩ := hstands
    obtain ⟨ds, t, hs', hne, hds, ht⟩ := digits_of_isDigit hbr hb
    refine ⟨⟨decide (c = 'E'), sign, ds⟩, t, ⟨hsign, hne, hds⟩, ht, ?_⟩
    unfold Exponent.chars
    rcases hc with rfl | rfl
    all_goals
      rw [hs, hs', List.cons_append, List.append_assoc]
      rfl
  rcases hs : encode s with _ | ⟨b, r'⟩
  · rw [hs] at h
    cases h
  rw [hs] at h
  unfold numberExponent at h
  dsimp only at h
  by_cases hplus : glyph b = '+'
  · rw [if_pos hplus] at h
    obtain ⟨s', hs', rfl⟩ := encode_eq_glyph hs hplus (by decide)
    dsimp only at h
    split at h
    · cases h
    · next b' r'' hr =>
      split at h
      · next hb => exact hdigits (some '+') hs' (by simp) ⟨b', r'', hr, hb⟩
      · cases h
  by_cases hminus : glyph b = '-'
  · rw [if_neg hplus, if_pos hminus] at h
    obtain ⟨s', hs', rfl⟩ := encode_eq_glyph hs hminus (by decide)
    dsimp only at h
    split at h
    · cases h
    · next b' r'' hr =>
      split at h
      · next hb => exact hdigits (some '-') hs' (by simp) ⟨b', r'', hr, hb⟩
      · cases h
  rw [if_neg hplus, if_neg hminus] at h
  dsimp only at h
  split at h
  · next hb => exact hdigits none rfl (Or.inl rfl) ⟨b, r', hs, hb⟩
  · cases h

/-! ## Whole numbers -/

namespace Numeral

/-- Characters that cannot go on a number. -/
structure Stops (n : Numeral) (t : List Char) : Prop where
  /-- No digit stands in front. -/
  digit : NoDigit t
  /-- No exponent either, unless there is one already. -/
  mark : n.exponent = none → ∀ b r, encode t = b :: r → glyph b ≠ 'e' ∧ glyph b ≠ 'E'
  /-- No point either, unless there is a fraction or an exponent already. -/
  point : n.exponent = none → n.fraction = [] → ∀ b r, encode t = b :: r → glyph b ≠ '.'

/-- What can go on no number: neither digit nor point nor exponent follows. -/
theorem stops_of_ends (n : Numeral) {t : List Char} (h : Ends (encode t)) : n.Stops t where
  digit := fun b r hb => (h b r hb).1
  mark := fun _ b r hb => (h b r hb).2.2
  point := fun _ _ b r hb => (h b r hb).2.1

/-- The mark of an exponent, and what follows it. -/
theorem encode_exponent (e : Exponent) (s : List Char) : ∃ b, (glyph b = 'e' ∨ glyph b = 'E') ∧
    encode (e.chars ++ s) = b :: encode (e.sign.toList ++ (e.digits ++ s)) := by
  unfold Exponent.chars
  rw [List.cons_append, List.append_assoc]
  cases e.capital with
  | true => exact ⟨69, Or.inr rfl, encode_cons_ascii (by decide) _⟩
  | false => exact ⟨101, Or.inl rfl, encode_cons_ascii (by decide) _⟩

theorem noDigit_exponent (e : Exponent) (s : List Char) : NoDigit (e.chars ++ s) := by
  obtain ⟨b, hb, hbytes⟩ := encode_exponent e s
  intro b' r hr
  rw [hbytes] at hr
  obtain ⟨rfl, -⟩ := List.cons.inj hr
  unfold isDigit
  rcases hb with hb | hb
  all_goals
    rw [hb]
    decide

/-- No digit follows those before the point, since a point, an exponent or the end does. -/
theorem noDigit_tail {n : Numeral} {t : List Char} (ht : NoDigit t) : NoDigit (n.tail ++ t) := by
  unfold tail
  split
  · rw [List.nil_append]
    cases n.exponent with
    | none => exact ht
    | some e => exact noDigit_exponent e t
  · intro b r hr
    rw [List.cons_append, List.cons_append, encode_cons_ascii (by decide)] at hr
    obtain ⟨rfl, -⟩ := List.cons.inj hr
    decide

/-- The fraction of a number and what follows it. -/
theorem gives_fraction {n : Numeral} (hn : n.WellFormed) (hne : n.fraction ≠ []) (d : Digits)
    {t : List Char} (ht : n.Stops t) :
    Gives (n.valueFrom d) t (numberFraction n.negative d
      (encode (n.fraction ++ (n.exponent.elim [] Exponent.chars ++ t)))) := by
  have hdigits : AreDigits (encode n.fraction) := (encode_digits hn.fraction).2
  have hempty : (encode n.fraction).isEmpty = false := by
    rw [List.isEmpty_eq_false_iff]
    exact fun h => hne (encode_eq_nil h)
  unfold valueFrom
  rw [encode_append]
  cases he : n.exponent with
  | none =>
    -- the digits end the number
    dsimp only
    rw [if_neg hne]
    have hread := gives_floatOf n.negative (d.joinFraction (encode n.fraction)) t
    show Gives _ t (numberFraction n.negative d (encode n.fraction ++ encode t))
    simp only [numberFraction, takeWhile_digits hdigits ht.digit,
      dropWhile_digits hdigits ht.digit, hempty, Bool.false_eq_true, if_false]
    cases hrest : encode t with
    | nil =>
      rw [hrest] at hread
      exact hread
    | cons b r =>
      obtain ⟨hlower, hupper⟩ := ht.mark he b r hrest
      rw [hrest] at hread
      simp only [hlower, hupper, or_self, if_false]
      exact hread
  | some e =>
    dsimp only [Option.elim_some]
    obtain ⟨b, hb, hbytes⟩ := encode_exponent e t
    have hstop := noDigit_exponent e t
    unfold NoDigit at hstop
    rw [hbytes] at hstop ⊢
    simp only [numberFraction, takeWhile_digits hdigits hstop, dropWhile_digits hdigits hstop,
      hempty, Bool.false_eq_true, if_false, if_pos hb]
    exact gives_scaled n.negative _ (hn.exponent e he) ht.digit

/-- What follows the digits before the point decides what the number is: a fraction, an exponent, or
a whole number. -/
theorem gives_tail {n : Numeral} (hn : n.WellFormed) (d : Digits) {t : List Char}
    (ht : n.Stops t) :
    Gives (n.valueFrom d) t (numberTail n.negative d (encode (n.tail ++ t))) := by
  unfold tail
  by_cases hfraction : n.fraction = []
  · rw [if_pos hfraction, List.nil_append]
    unfold valueFrom
    cases he : n.exponent with
    | none =>
      -- what stands behind cannot go on the number, so it is a whole one
      dsimp only
      rw [if_pos hfraction]
      show Gives _ t (numberTail n.negative d (encode t))
      have hread := gives_wholeNumber n.negative d t
      have hends : Ends (encode t) := fun b r hb =>
        ⟨ht.digit b r hb, ht.point he hfraction b r hb, ht.mark he b r hb⟩
      rw [numberTail_ends hends]
      exact hread
    | some e =>
      dsimp only [Option.elim_some]
      obtain ⟨b, hb, hbytes⟩ := encode_exponent e t
      have hscaled := gives_scaled n.negative (d.joinFraction (encode n.fraction))
        (hn.exponent e he) ht.digit
      rw [hfraction] at hscaled ⊢
      rw [hbytes]
      unfold numberTail
      rcases hb with hb | hb
      all_goals
        dsimp only
        rw [hb]
        exact hscaled
  · have hread := gives_fraction hn hfraction d ht
    rw [if_neg hfraction, List.cons_append, List.cons_append, List.append_assoc,
      encode_cons_ascii (by decide)]
    exact hread

/-- The reader takes a number, after its sign, and gives its value. It looks at the first digit,
since a zero there must be the only one; what follows goes along the tail. -/
theorem WellFormed.gives {n : Numeral} (hn : n.WellFormed) {t : List Char} (ht : n.Stops t) :
    Gives n.value? t (number n.negative (encode (n.whole ++ (n.tail ++ t)))) := by
  obtain ⟨b, r, hbr, hb, -⟩ := encode_digits_cons hn.whole hn.nonempty
  have hdigits : AreDigits (encode n.whole) := (encode_digits hn.whole).2
  have hstop : NoDigit (n.tail ++ t) := noDigit_tail ht.digit
  have htail := gives_tail hn (Digits.joinWhole 0 (encode n.whole)) ht
  by_cases hzero : glyph b = '0'
  · -- a zero in front stands alone
    have hwhole : n.whole = ['0'] := by
      obtain ⟨cs, hcs, -⟩ := encode_eq_glyph hbr hzero (by decide)
      exact hn.leading (by rw [hcs]; rfl)
    unfold value?
    have hbytes : encode (['0'] ++ (n.tail ++ t)) = 48 :: encode (n.tail ++ t) :=
      encode_cons_ascii (by decide) _
    have hglyph : glyph 48 = '0' := by decide
    rw [hwhole] at htail ⊢
    rw [hbytes]
    unfold number
    simp only [hglyph, if_true]
    cases hrest : encode (n.tail ++ t) with
    | nil =>
      rw [hrest] at htail
      exact htail
    | cons b' r' =>
      rw [hrest] at htail
      simp only [hstop b' r' hrest, Bool.false_eq_true, if_false]
      exact htail
  · rw [encode_append]
    have htake := takeWhile_digits hdigits hstop
    have hdrop := dropWhile_digits hdigits hstop
    unfold value?
    rw [hbr] at htake hdrop htail ⊢
    rw [List.cons_append] at htake hdrop ⊢
    simp only [number, hzero, if_false, hb, if_true, htake, hdrop]
    exact htail

end Numeral

/-- A number in front of characters that cannot go on it, when its sign and the digits before the
point are known to be those of `n`, and `s` stands behind these digits. -/
def GoesOn (n : Numeral) (s : List Char) : Prop :=
  ∃ (m : Numeral) (t : List Char), m.negative = n.negative ∧ m.whole = n.whole ∧ m.WellFormed ∧
    m.Stops t ∧ s = m.tail ++ t

/-- Digits after a point, or neither, go on a number in front of what cannot go on that. -/
theorem goesOn_fraction {n : Numeral} (hn : n.WellFormed) {ds : List Char}
    (hds : ∀ c ∈ ds, c.isDigit = true) {t : List Char}
    (ht : ({ n with fraction := ds, exponent := none } : Numeral).Stops t) :
    GoesOn n ((if ds = [] then [] else '.' :: ds) ++ t) := by
  refine ⟨{ n with fraction := ds, exponent := none }, t, rfl, rfl, ?_, ht, ?_⟩
  · exact ⟨hn.nonempty, hn.whole, hn.leading, hds, fun e he => nomatch he⟩
  · exact congrArg (· ++ t) (List.append_nil _).symm

/-- So they do with an exponent behind them, whether or not a fraction stands in between. -/
theorem goesOn_exponent {n : Numeral} (hn : n.WellFormed) {ds : List Char}
    (hds : ∀ c ∈ ds, c.isDigit = true) {e : Exponent} (he : e.WellFormed) {t : List Char}
    (ht : NoDigit t) : GoesOn n ((if ds = [] then [] else '.' :: ds) ++ (e.chars ++ t)) := by
  refine ⟨{ n with fraction := ds, exponent := some e }, t, rfl, rfl, ?_, ?_, ?_⟩
  · refine ⟨hn.nonempty, hn.whole, hn.leading, hds, fun e' he' => ?_⟩
    obtain rfl := Option.some.inj he'
    exact he
  · exact ⟨ht, fun hnone => (nomatch hnone), fun hnone => nomatch hnone⟩
  · exact (List.append_assoc _ _ _).symm

/-- Where an exponent is read behind its mark it goes on the number. -/
theorem goesOn_of_numberExponent {n : Numeral} (hn : n.WellFormed) {negative : Bool} {d : Digits}
    {ds t : List Char} (hds : ∀ c ∈ ds, c.isDigit = true) {b : UInt8} {r' : List UInt8}
    (ht : encode t = b :: r') (hb : glyph b = 'e' ∨ glyph b = 'E') {v : Number} {r : List UInt8}
    (h : numberExponent negative d r' = .ok (v, r)) :
    GoesOn n ((if ds = [] then [] else '.' :: ds) ++ t) := by
  have hascii : b.toNat < 0x80 :=
    hb.elim (fun he => glyph_lt he (by decide)) fun hE => glyph_lt hE (by decide)
  obtain ⟨t', rfl, rfl⟩ := encode_eq_cons ht hascii
  obtain ⟨e, u, he, hu, hs⟩ := exponent_of_numberExponent h hb
  rw [hs]
  exact goesOn_exponent hn hds he hu

/-- Where a fraction is read one stands behind its point: at least one digit, all that follow it,
and perhaps an exponent. -/
theorem goesOn_of_numberFraction {n : Numeral} (hn : n.WellFormed) {negative : Bool} {d : Digits}
    {s : List Char} {v : Number} {r : List UInt8}
    (h : numberFraction negative d (encode s) = .ok (v, r)) : GoesOn n ('.' :: s) := by
  obtain ⟨ds, t, rfl, hds, ht⟩ := digits_split s
  have hdigits : AreDigits (encode ds) := (encode_digits hds).2
  rw [encode_append] at h
  unfold numberFraction at h
  simp only [takeWhile_digits hdigits ht, dropWhile_digits hdigits ht] at h
  have hne : ds ≠ [] := by
    rintro rfl
    rw [show encode ([] : List Char) = [] from rfl] at h
    simp only [List.isEmpty_nil, if_true, List.nil_append] at h
    split at h <;> cases h
  have hempty : (encode ds).isEmpty = false := by
    rw [List.isEmpty_eq_false_iff]
    exact fun he => hne (encode_eq_nil he)
  simp only [hempty, Bool.false_eq_true, if_false] at h
  have hpoint : '.' :: (ds ++ t) = (if ds = [] then [] else '.' :: ds) ++ t := by
    rw [if_neg hne, List.cons_append]
  rw [hpoint]
  -- without an exponent
  have hplain : (∀ b r, encode t = b :: r → glyph b ≠ 'e' ∧ glyph b ≠ 'E') →
      GoesOn n ((if ds = [] then [] else '.' :: ds) ++ t) := fun hmark =>
    goesOn_fraction hn hds ⟨ht, fun _ => hmark, fun _ he => absurd he hne⟩
  cases hrest : encode t with
  | nil => exact hplain fun b r hb => absurd (hrest.symm.trans hb) (List.cons_ne_nil b r).symm
  | cons b r' =>
    rw [hrest] at h
    dsimp only at h
    split at h
    · next hb => exact goesOn_of_numberExponent hn hds hrest hb h
    · next hb =>
      refine hplain fun b' r'' hb' => ?_
      obtain ⟨rfl, -⟩ := List.cons.inj (hrest.symm.trans hb')
      exact not_or.mp hb

/-- What is read behind the digits before the point stands there. Three cases, by whether a point,
the letter of an exponent or something else comes first. -/
theorem goesOn_of_numberTail {n : Numeral} (hn : n.WellFormed) {negative : Bool} {d : Digits}
    {s : List Char} (hs : NoDigit s) {v : Number} {r : List UInt8}
    (h : numberTail negative d (encode s) = .ok (v, r)) : GoesOn n s := by
  have hnone : ∀ c ∈ ([] : List Char), c.isDigit = true := fun _ hc => nomatch hc
  -- neither a point nor an exponent
  have hplain : (∀ b r, encode s = b :: r → glyph b ≠ '.' ∧ glyph b ≠ 'e' ∧ glyph b ≠ 'E') →
      GoesOn n s := fun hends =>
    goesOn_fraction hn hnone (Numeral.stops_of_ends _ fun b r hb => ⟨hs b r hb, hends b r hb⟩)
  cases hbr : encode s with
  | nil => exact hplain fun b r hb => absurd (hbr.symm.trans hb) (List.cons_ne_nil b r).symm
  | cons b r' =>
    rw [hbr] at h
    unfold numberTail at h
    dsimp only at h
    split at h
    · next hb =>
      obtain ⟨s', rfl, rfl⟩ := encode_eq_glyph hbr hb (by decide)
      exact goesOn_of_numberFraction hn h
    · next hb => exact goesOn_of_numberExponent hn hnone hbr (Or.inl hb) h
    · next hb => exact goesOn_of_numberExponent hn hnone hbr (Or.inr hb) h
    · next hpoint hlower hupper =>
      refine hplain fun b' r'' hb' => ?_
      obtain ⟨rfl, -⟩ := List.cons.inj (hbr.symm.trans hb')
      exact ⟨hpoint, hlower, hupper⟩

/-- Where a number is read one stands, and the reading is its value. -/
theorem numeral_of_number {negative : Bool} {s : List Char} {v : Number} {r : List UInt8}
    (h : number negative (encode s) = .ok (v, r)) :
    ∃ (n : Numeral) (t : List Char), n.negative = negative ∧ n.WellFormed ∧
      s = n.whole ++ (n.tail ++ t) ∧ n.value? = some v ∧ r = encode t := by
  have hread : ∀ (n : Numeral) (s' : List Char), n.negative = negative → s = n.whole ++ s' →
      GoesOn n s' → ∃ (n : Numeral) (t : List Char), n.negative = negative ∧ n.WellFormed ∧
        s = n.whole ++ (n.tail ++ t) ∧ n.value? = some v ∧ r = encode t := by
    rintro n s' hneg hs ⟨m, t, hmneg, hmwhole, hm, ht, rfl⟩
    rw [← hmwhole] at hs
    have hgives := hm.gives ht
    rw [← hs, hmneg, hneg, h] at hgives
    exact ⟨m, t, hmneg.trans hneg, hm, hs, hgives.1, hgives.2⟩
  rcases hs : encode s with _ | ⟨b, r'⟩
  · rw [hs] at h
    exact nomatch h
  rw [hs] at h
  unfold number at h
  dsimp only at h
  by_cases hzero : glyph b = '0'
  · rw [if_pos hzero] at h
    obtain ⟨s', rfl, rfl⟩ := encode_eq_glyph hs hzero (by decide)
    -- no digit stands behind it
    obtain ⟨hdigit, htail⟩ :
        NoDigit s' ∧ numberTail negative ⟨0, 0⟩ (encode s') = .ok (v, r) := by
      cases hrest : encode s' with
      | nil =>
        rw [hrest] at h
        exact ⟨fun b r hb => absurd (hrest.symm.trans hb) (List.cons_ne_nil b r).symm, h⟩
      | cons b' r' =>
        rw [hrest] at h
        dsimp only at h
        split at h
        · cases h
        · next hnot =>
          refine ⟨fun b r hb => ?_, h⟩
          obtain ⟨rfl, -⟩ := List.cons.inj (hrest.symm.trans hb)
          exact Bool.eq_false_iff.mpr hnot
    refine hread ⟨negative, ['0'], [], none⟩ s' rfl rfl (goesOn_of_numberTail ?_ hdigit htail)
    have hone : ∀ c ∈ ['0'], c.isDigit = true := List.forall_mem_singleton.mpr (by decide)
    exact ⟨List.cons_ne_nil _ _, hone, fun _ => rfl, fun _ hc => (nomatch hc),
      fun e he => nomatch he⟩
  · rw [if_neg hzero] at h
    split at h
    · next hb =>
      obtain ⟨ds, t, rfl, hne, hds, ht⟩ := digits_of_isDigit hs hb
      have hdigits : AreDigits (encode ds) := (encode_digits hds).2
      rw [← hs, encode_append, dropWhile_digits hdigits ht] at h
      refine hread ⟨negative, ds, [], none⟩ t rfl rfl (goesOn_of_numberTail ?_ ht h)
      refine ⟨hne, hds, fun hhead => ?_, fun _ hc => (nomatch hc), fun e he => nomatch he⟩
      -- the first digit is no zero
      cases ds with
      | nil => exact absurd rfl hne
      | cons c cs =>
        obtain rfl := Option.some.inj hhead
        rw [List.cons_append, encode_cons_ascii (by decide)] at hs
        obtain ⟨rfl, -⟩ := List.cons.inj hs
        exact absurd (glyph_ofNat (by decide)) hzero
    · exact nomatch h

end Json
end KernelLink
