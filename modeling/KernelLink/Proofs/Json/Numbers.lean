import KernelLink.Proofs.Json.Texts
/-!
# Numbers read back

What the printer writes for a number is read as far as it goes and no further. An integer that fits
a machine word reads back as itself. Of any other number nothing is said but that the reader, if it
does not refuse it, stops where the number ends.

Main definitions:
* `Number.Whole`: an integer that fits a signed or an unsigned machine word.
* `Json.Ends`: bytes that cannot go on a number.
* `Json.Leaves`: a reading that stops where given bytes begin, if it is not refused.
* `Number.Written`: what is written for a number, in parts.

Main results:
* `Json.number_digitBytes`: the digits of a natural number read back.
* `Number.Written.reads`: what reading a number gives.
-/
namespace KernelLink

/-- An integer from `-2 ^ 63` up to, but not including, `2 ^ 64`. -/
def Number.Whole : Number → Prop
  | .int i => -(Nat.pow 2 63 : Int) ≤ i ∧ i < Nat.pow 2 64
  | .float _ => False

instance (n : Number) : Decidable n.Whole :=
  match n with
  | .int i => inferInstanceAs (Decidable (-(Nat.pow 2 63 : Int) ≤ i ∧ i < Nat.pow 2 64))
  | .float _ => inferInstanceAs (Decidable False)

namespace Json

open Text.Utf8 (encode encode_append)

/-! ## Digits -/

/-- The bytes cannot go on a number. -/
def Ends (r : List UInt8) : Prop :=
  ∀ b s, r = b :: s → isDigit b = false ∧ glyph b ≠ '.' ∧ glyph b ≠ 'e' ∧ glyph b ≠ 'E'

theorem ends_nil : Ends [] := fun _ _ h => nomatch h

/-- Whether bytes end a number is seen from the first of them: it must not be a digit, a point or
the letter of an exponent. -/
theorem ends_cons {b : UInt8} {s : List UInt8}
    (h : isDigit b = false ∧ glyph b ≠ '.' ∧ glyph b ≠ 'e' ∧ glyph b ≠ 'E') : Ends (b :: s) := by
  rintro b' s' he
  obtain ⟨rfl, -⟩ := List.cons.inj he
  exact h

/-- Decimal digits, as bytes. -/
def AreDigits (ds : List UInt8) : Prop := ∀ b ∈ ds, isDigit b = true

theorem isDigit_le {b : UInt8} (h : isDigit b = true) : b.toNat ≤ 57 := by
  unfold isDigit at h
  simp only [Char.isDigit, Bool.and_eq_true, decide_eq_true_eq] at h
  exact h.2

theorem digitValue_le {b : UInt8} (h : isDigit b = true) : digitValue b ≤ 9 := by
  have hle := isDigit_le h
  unfold digitValue
  omega

/-- The longest row of digits in front is the digits that were written there, if what stands behind
them is none. -/
theorem takeWhile_digits {ds r : List UInt8} (hd : AreDigits ds)
    (hr : ∀ b s, r = b :: s → isDigit b = false) : (ds ++ r).takeWhile isDigit = ds := by
  rw [List.takeWhile_append_of_pos hd]
  cases r with
  | nil => exact List.append_nil ds
  | cons b s => rw [List.takeWhile_cons_of_neg (by rw [hr b s rfl]; simp), List.append_nil]

theorem dropWhile_digits {ds r : List UInt8} (hd : AreDigits ds)
    (hr : ∀ b s, r = b :: s → isDigit b = false) : (ds ++ r).dropWhile isDigit = r := by
  rw [List.dropWhile_append_of_pos hd]
  cases r with
  | nil => rfl
  | cons b s => exact List.dropWhile_cons_of_neg (by rw [hr b s rfl]; simp)

/-- Decimal digits are single bytes each, so their encoding is a row of digits as the reader knows
them. -/
theorem encode_digits {cs : List Char} (h : ∀ c ∈ cs, c.isDigit = true) :
    encode cs = cs.map (fun c => UInt8.ofNat c.toNat) ∧ AreDigits (encode cs) := by
  induction cs with
  | nil => exact ⟨rfl, fun _ h => nomatch h⟩
  | cons c cs ih =>
    have hc : c.isDigit = true := h c List.mem_cons_self
    have hascii : c.toNat < 0x80 := by
      simp only [Char.isDigit, Bool.and_eq_true, decide_eq_true_eq] at hc
      have : c.toNat ≤ 57 := hc.2
      omega
    obtain ⟨hmap, hdigits⟩ := ih fun d hd => h d (List.mem_cons_of_mem c hd)
    rw [encode_cons_ascii hascii]
    refine ⟨by rw [hmap, List.map_cons], fun b hb => ?_⟩
    rcases List.mem_cons.mp hb with rfl | hb
    · unfold isDigit
      rw [glyph_ofNat hascii, hc]
    · exact hdigits b hb

theorem isDigit_toDigits (n : Nat) : ∀ c ∈ Nat.toDigits 10 n, c.isDigit = true :=
  fun _ hc => Nat.isDigit_of_mem_toDigits (by omega) (by omega) hc

/-- The digits of a natural number as bytes. -/
def digitBytes (n : Nat) : List UInt8 := encode (Nat.toDigits 10 n)

theorem areDigits_digitBytes (n : Nat) : AreDigits (digitBytes n) :=
  (encode_digits (isDigit_toDigits n)).2

/-- The digits of a natural number, the last one apart; this is how they are gone through by
induction. -/
theorem digitBytes_eq (n : Nat) :
    digitBytes n = if n < 10 then [UInt8.ofNat (48 + n)]
      else digitBytes (n / 10) ++ [UInt8.ofNat (48 + n % 10)] := by
  have hdigit : ∀ d < 10, encode [Nat.digitChar d] = [UInt8.ofNat (48 + d)] := by decide
  unfold digitBytes
  rw [Nat.toDigits_eq_if (by omega)]
  split
  · next h => exact hdigit n h
  · rw [encode_append, hdigit _ (Nat.mod_lt n (by omega))]

theorem digitBytes_ne_nil (n : Nat) : digitBytes n ≠ [] := by
  rw [digitBytes_eq]
  split
  · exact List.cons_ne_nil _ _
  · simp

/-- The digit that is written for a number below ten stands for that number. -/
theorem digitValue_ofNat {d : Nat} (h : d < 10) : digitValue (UInt8.ofNat (48 + d)) = d := by
  unfold digitValue
  simp
  omega

/-- A number above zero has a first digit above zero. Induction on the number: dropping the last
digit leaves one that is still above zero. -/
theorem head?_digitBytes {n : Nat} (hn : 0 < n) : ∃ b s, digitBytes n = b :: s ∧ glyph b ≠ '0' := by
  have hdigit : ∀ d < 10, 0 < d → glyph (UInt8.ofNat (48 + d)) ≠ '0' := by decide
  induction n using Nat.strongRecOn with
  | ind n ih =>
    rw [digitBytes_eq]
    split
    · next h => exact ⟨_, [], rfl, hdigit n h hn⟩
    · next h =>
      obtain ⟨b, s, hs, hb⟩ := ih (n / 10) (by omega) (by omega)
      exact ⟨b, s ++ [UInt8.ofNat (48 + n % 10)], by rw [hs]; rfl, hb⟩

theorem digitBytes_zero : digitBytes 0 = [48] := by decide

/-- Joining goes on where it stopped, if nothing was dropped; otherwise it would go on dropping. -/
theorem joinWhole_append (as bs : List UInt8) {k m : Nat}
    (h : Digits.joinWhole k as = ⟨m, 0⟩) :
    Digits.joinWhole k (as ++ bs) = Digits.joinWhole m bs := by
  induction as generalizing k with
  | nil =>
    obtain rfl := (Digits.mk.inj h).1
    rfl
  | cons a as ih =>
    rw [List.cons_append]
    simp only [Digits.joinWhole] at h ⊢
    split at h
    · exact absurd (Digits.mk.inj h).2 (by simp; omega)
    · next hle =>
      rw [if_neg hle]
      exact ih h

/-- The digits of a number that fits are all kept, since every front of them stands for a smaller
number. -/
theorem joinWhole_digitBytes {n : Nat} (hn : n ≤ wordLimit) :
    Digits.joinWhole 0 (digitBytes n) = ⟨n, 0⟩ := by
  induction n using Nat.strongRecOn with
  | ind n ih =>
    rw [digitBytes_eq]
    split
    · next h =>
      simp only [Digits.joinWhole, digitValue_ofNat h, Nat.zero_mul, Nat.zero_add]
      rw [if_neg (by omega)]
    · next h =>
      have hsplit : n / 10 * 10 + n % 10 = n := Nat.div_add_mod' n 10
      rw [joinWhole_append _ _ (ih (n / 10) (by omega) (by omega))]
      simp only [Digits.joinWhole, digitValue_ofNat (Nat.mod_lt n (by omega : 10 > 0)), hsplit]
      rw [if_neg (by omega)]

/-! ## Numbers -/

/-- A reading that, if it is not refused, stops where `r` begins. -/
def Leaves {α : Type} (x : Reading α) (r : List UInt8) : Prop := ∀ a s, x = .ok (a, s) → s = r

theorem leaves_ok {α : Type} (a : α) (r : List UInt8) : Leaves (.ok (a, r)) r := by
  rintro a' s he
  rw [Except.ok.injEq, Prod.mk.injEq] at he
  exact he.2.symm

theorem leaves_error {α : Type} (f : Fault) (r : List UInt8) :
    Leaves (.error f : Reading α) r := fun _ _ he => nomatch he

/-- Rounding what was read to a double gives a number or refuses it, and touches no byte of the
input. -/
theorem leaves_floatOf (negative : Bool) (d : Digits) (r : List UInt8) :
    Leaves (floatOf negative d r) r := by
  unfold floatOf
  split
  · exact leaves_ok _ r
  · exact leaves_error _ r

/-- A number without fraction and exponent is a word, or a double if no word holds it; in each case
nothing more is read. -/
theorem leaves_wholeNumber (negative : Bool) (d : Digits) (r : List UInt8) :
    Leaves (wholeNumber negative d r) r := by
  unfold wholeNumber
  split
  · exact leaves_floatOf negative d r
  split
  · exact leaves_ok _ r
  split
  · exact leaves_ok _ r
  · exact leaves_ok _ r

/-- The number that decimal digits stand for, those of `n` before them. -/
def decimalFrom (n : Nat) (ds : List UInt8) : Nat :=
  ds.foldl (fun n b => n * 10 + digitValue b) n

/-- Appending digits to a number does not make it smaller. Induction on the digits, with the number
that they are appended to left open. -/
theorem le_decimalFrom (n : Nat) (ds : List UInt8) : n ≤ decimalFrom n ds := by
  induction ds generalizing n with
  | nil => exact Nat.le_refl n
  | cons d ds ih =>
    have := ih (n * 10 + digitValue d)
    show n ≤ decimalFrom (n * 10 + digitValue d) ds
    omega

/-- The digits of an exponent, up to the limit and past it. -/
theorem exponentDigits_eq {ds r : List UInt8} (hd : AreDigits ds)
    (hr : ∀ b s, r = b :: s → isDigit b = false) (n : Nat) (hn : n ≤ Nat.pow 2 31 - 1) :
    decimalFrom n ds ≤ Nat.pow 2 31 - 1 ∧
        exponentDigits n (ds ++ r) = (some (decimalFrom n ds), r) ∨
      Nat.pow 2 31 - 1 < decimalFrom n ds ∧
        ∃ s, exponentDigits n (ds ++ r) = (none, s) ∧ s.dropWhile isDigit = r := by
  induction ds generalizing n with
  | nil =>
    refine Or.inl ⟨hn, ?_⟩
    cases r with
    | nil => rfl
    | cons b s => rw [List.nil_append, exponentDigits, hr b s rfl]; rfl
  | cons d ds ih =>
    have hds : AreDigits ds := fun b hb => hd b (List.mem_cons_of_mem d hb)
    rw [List.cons_append, exponentDigits, if_pos (hd d List.mem_cons_self)]
    split
    · next hpast =>
      refine Or.inr ⟨?_, ds ++ r, rfl, dropWhile_digits hds hr⟩
      exact Nat.lt_of_lt_of_le hpast (le_decimalFrom (n * 10 + digitValue d) ds)
    · next hpast => exact ih hds _ (Nat.le_of_not_lt hpast)

/-- The signs that an exponent may have. -/
def IsSign (sign : List UInt8) : Prop := sign = [] ∨ sign = [43] ∨ sign = [45]

/-- Reading an exponent leaves what stands behind it. There are three cases, the sign left away,
plus and minus, and they differ only in what is skipped first; a row of digits may be too long for
the reader, which then goes on without counting. -/
theorem leaves_numberExponent (negative : Bool) (d : Digits) {sign ds r : List UInt8}
    (hs : IsSign sign) (hd : AreDigits ds) (hne : ds ≠ []) (hr : Ends r) :
    Leaves (numberExponent negative d (sign ++ (ds ++ r))) r := by
  cases ds with
  | nil => exact absurd rfl hne
  | cons e es =>
    have he : isDigit e = true := hd e List.mem_cons_self
    have hes : AreDigits es := fun b hb => hd b (List.mem_cons_of_mem e hb)
    have hplus : glyph e ≠ '+' := by rintro h; rw [isDigit, h] at he; exact absurd he (by decide)
    have hminus : glyph e ≠ '-' := by rintro h; rw [isDigit, h] at he; exact absurd he (by decide)
    have hsigns : glyph 43 = '+' ∧ glyph 45 ≠ '+' ∧ glyph 45 = '-' := by decide
    have hfirst : digitValue e ≤ Nat.pow 2 31 - 1 := Nat.le_trans (digitValue_le he) (by decide)
    have hstop : ∀ b s, r = b :: s → isDigit b = false := fun b s h => (hr b s h).1
    rcases hs with rfl | rfl | rfl
    all_goals
      simp only [List.nil_append, List.cons_append]
      unfold numberExponent
      simp only [if_neg hplus, if_neg hminus, if_pos hsigns.1, if_neg hsigns.2.1,
        if_pos hsigns.2.2, if_pos he]
      -- after the sign
      rcases exponentDigits_eq hes hstop (digitValue e) hfirst with ⟨-, hx⟩ | ⟨-, s, hx, hs⟩
      · rw [hx]
        exact leaves_floatOf _ _ r
      · rw [hx]
        dsimp only
        split
        · exact leaves_error _ r
        · rw [hs]
          exact leaves_ok _ r

/-- What the printer may write for an exponent. -/
def IsExponent (t : List UInt8) : Prop :=
  ∃ sign ds, t = 101 :: (sign ++ ds) ∧ IsSign sign ∧ AreDigits ds ∧ ds ≠ []

/-- Reading a fraction leaves what stands behind it, with an exponent in between or without. Digits
that no longer fit a word are dropped and still read, so the reader stops at the same place. -/
theorem leaves_numberFraction (negative : Bool) (d : Digits) {ds t r : List UInt8}
    (hd : AreDigits ds) (hne : ds ≠ []) (ht : t = [] ∨ IsExponent t) (hr : Ends r) :
    Leaves (numberFraction negative d (ds ++ (t ++ r))) r := by
  have hempty : ds.isEmpty = false := by simpa using hne
  rcases ht with rfl | ⟨sign, es, rfl, hs, hes, hese⟩
  · have hstop : ∀ b s, r = b :: s → isDigit b = false := fun b s h => (hr b s h).1
    rw [List.nil_append]
    unfold numberFraction
    simp only [takeWhile_digits hd hstop, dropWhile_digits hd hstop, hempty]
    cases r with
    | nil => exact leaves_floatOf _ _ []
    | cons b s =>
      obtain ⟨-, -, he, hE⟩ := hr b s rfl
      simp only [he, hE, or_self, if_false]
      exact leaves_floatOf _ _ _
  · -- the exponent begins with a letter, so the digits of the fraction end there
    have hstop : ∀ b s, 101 :: (sign ++ es ++ r) = b :: s → isDigit b = false := by
      rintro b s h
      obtain ⟨rfl, -⟩ := List.cons.inj h
      decide
    have hmark : glyph 101 = 'e' := by decide
    rw [List.cons_append]
    unfold numberFraction
    simp only [takeWhile_digits hd hstop, dropWhile_digits hd hstop, hempty, hmark, true_or,
      if_true]
    rw [List.append_assoc]
    exact leaves_numberExponent negative _ hs hes hese hr

/-- What the printer may write behind the digits before the point. -/
def IsTail (t : List UInt8) : Prop :=
  t = [] ∨ IsExponent t ∨
    ∃ ds u, t = 46 :: (ds ++ u) ∧ AreDigits ds ∧ ds ≠ [] ∧ (u = [] ∨ IsExponent u)

theorem numberTail_ends {r : List UInt8} (hr : Ends r) (negative : Bool) (d : Digits) :
    numberTail negative d r = wholeNumber negative d r := by
  unfold numberTail
  cases r with
  | nil => rfl
  | cons b s =>
    obtain ⟨-, hpoint, he, hE⟩ := hr b s rfl
    dsimp only
    split
    · next h => exact absurd h hpoint
    · next h => exact absurd h he
    · next h => exact absurd h hE
    · rfl

/-- Reading what follows the first digits of a number, which may be nothing, an exponent or a
fraction, leaves what stands behind all of it. -/
theorem leaves_numberTail (negative : Bool) (d : Digits) {t r : List UInt8} (ht : IsTail t)
    (hr : Ends r) : Leaves (numberTail negative d (t ++ r)) r := by
  rcases ht with rfl | ⟨sign, es, rfl, hs, hes, hese⟩ | ⟨ds, u, rfl, hd, hne, hu⟩
  · rw [List.nil_append, numberTail_ends hr]
    exact leaves_wholeNumber negative d r
  · rw [List.cons_append, List.append_assoc]
    exact leaves_numberExponent negative d hs hes hese hr
  · rw [List.cons_append, List.append_assoc]
    exact leaves_numberFraction negative d hd hne hu hr

/-- What follows the first digits of a number does not begin with another digit, so these are all of
them. -/
theorem not_isDigit_tail {t r : List UInt8} (ht : IsTail t) (hr : Ends r) :
    ∀ b s, t ++ r = b :: s → isDigit b = false := by
  intro b s h
  rcases ht with rfl | ⟨sign, es, rfl, -⟩ | ⟨ds, u, rfl, -⟩
  · exact (hr b s h).1
  · obtain ⟨rfl, -⟩ := List.cons.inj h
    decide
  · obtain ⟨rfl, -⟩ := List.cons.inj h
    decide

/-- The reader stops where a number ends, unless it refuses it. A number that begins with zero has
no other digit in front of its point, so there are two cases. -/
theorem leaves_number (negative : Bool) {ds t r : List UInt8} (hd : AreDigits ds) (hne : ds ≠ [])
    (ht : IsTail t) (hr : Ends r) : Leaves (number negative (ds ++ (t ++ r))) r := by
  have hstop := not_isDigit_tail ht hr
  cases ds with
  | nil => exact absurd rfl hne
  | cons b s =>
    have hb : isDigit b = true := hd b List.mem_cons_self
    by_cases hzero : glyph b = '0'
    · cases s with
      | nil =>
        -- a single zero
        have htail := leaves_numberTail negative ⟨0, 0⟩ ht hr
        rw [List.singleton_append]
        unfold number
        simp only [hzero, if_true]
        split
        · split
          · exact leaves_error _ r
          · exact htail
        · exact htail
      | cons c s =>
        -- a zero in front of other digits is refused
        have hc : isDigit c = true := hd c (List.mem_cons_of_mem b List.mem_cons_self)
        simp only [List.cons_append, number, hzero, if_true, hc]
        exact leaves_error _ r
    · have htake := takeWhile_digits hd hstop
      have hdrop := dropWhile_digits hd hstop
      rw [List.cons_append] at htake hdrop ⊢
      simp only [number, hzero, if_false, hb, if_true, htake, hdrop]
      exact leaves_numberTail negative _ ht hr

/-- The digits of a natural number that fits read back. -/
theorem number_digitBytes (negative : Bool) {n : Nat} (hn : n ≤ wordLimit) {r : List UInt8}
    (hr : Ends r) : number negative (digitBytes n ++ r) = wholeNumber negative ⟨n, 0⟩ r := by
  have hstop : ∀ b s, r = b :: s → isDigit b = false := fun b s h => (hr b s h).1
  rcases Nat.eq_zero_or_pos n with rfl | hpos
  · -- zero is read apart, since no digit may follow a zero in front
    have hglyph : glyph 48 = '0' := by decide
    rw [digitBytes_zero, List.singleton_append]
    simp only [number, hglyph, if_true]
    cases r with
    | nil => rfl
    | cons b s =>
      simp only [hstop b s rfl, Bool.false_eq_true, if_false]
      exact numberTail_ends hr negative _
  · obtain ⟨b, s, hs, hb⟩ := head?_digitBytes hpos
    have hdigits := areDigits_digitBytes n
    have htake := takeWhile_digits hdigits hstop
    have hdrop := dropWhile_digits hdigits hstop
    have hjoin := joinWhole_digitBytes hn
    rw [hs] at hdigits htake hdrop hjoin ⊢
    have hdigit : isDigit b = true := hdigits b List.mem_cons_self
    rw [List.cons_append] at htake hdrop ⊢
    simp only [number, hb, if_false, hdigit, if_true, htake, hdrop, hjoin]
    exact numberTail_ends hr negative _

end Json

/-! ## Numbers as they are written -/

open Json

/-- What is written for a number: a sign, digits, and what may follow them. -/
structure Number.Written (n : Number) (negative : Bool) (ds t : List UInt8) : Prop where
  /-- The bytes. -/
  bytes : Text.Utf8.encode n.text.toList = (if negative then [45] else []) ++ (ds ++ t)
  /-- The digits before the point. -/
  digits : AreDigits ds
  /-- There are some. -/
  nonempty : ds ≠ []
  /-- A fraction, an exponent, both or neither. -/
  tail : IsTail t
  /-- An integer is its digits. -/
  int : ∀ i, n = .int i → negative = decide (i < 0) ∧ ds = digitBytes i.natAbs ∧ t = []

/-- An integer is written as its sign and its digits, with nothing behind them. -/
theorem Number.written_int (i : Int) :
    (Number.int i).Written (decide (i < 0)) (digitBytes i.natAbs) [] where
  bytes := by
    rw [List.append_nil]
    cases i with
    | ofNat m =>
      show Text.Utf8.encode (Nat.repr m).toList = _
      rw [Nat.toList_repr, if_neg (by simp)]
      rfl
    | negSucc m =>
      show Text.Utf8.encode ("-" ++ Nat.repr (m + 1)).toList = _
      rw [String.toList_append, Nat.toList_repr, Text.Utf8.encode_append,
        if_pos (by simp [Int.negSucc_lt_zero])]
      rfl
  digits := areDigits_digitBytes _
  nonempty := digitBytes_ne_nil _
  tail := Or.inl rfl
  int j hj := by
    obtain rfl := Number.int.inj hj
    exact ⟨rfl, rfl, rfl⟩

namespace Binary64

theorem encode_ne_nil {cs : List Char} (h : cs ≠ []) (hd : ∀ c ∈ cs, c.isDigit = true) :
    Text.Utf8.encode cs ≠ [] := by
  rw [(encode_digits hd).1]
  simpa using h

/-- In plain notation a double is digits and, unless it ends before the point, a fraction. -/
theorem plain_written {digits : List Char} (hd : ∀ c ∈ digits, c.isDigit = true)
    (hne : digits ≠ []) (lead : Int) :
    ∃ ds t, Text.Utf8.encode (documentLayout.plain digits lead) = ds ++ t ∧ AreDigits ds ∧
      ds ≠ [] ∧ IsTail t := by
  -- the point stands before the first digit, behind the last one or among them: three cases
  have hfraction : ∀ {cs : List Char}, (∀ c ∈ cs, c.isDigit = true) → cs ≠ [] →
      IsTail (46 :: Text.Utf8.encode cs) := by
    intro cs hcs hcn
    exact Or.inr (Or.inr ⟨Text.Utf8.encode cs, [], by rw [List.append_nil], (encode_digits hcs).2,
      encode_ne_nil hcn hcs, Or.inl rfl⟩)
  have hzeros : ∀ k, ∀ c ∈ List.replicate k '0', c.isDigit = true := by
    intro k c hc
    rw [List.eq_of_mem_replicate hc]
    rfl
  have happend : ∀ {cs es : List Char}, (∀ c ∈ cs, c.isDigit = true) →
      (∀ c ∈ es, c.isDigit = true) → ∀ c ∈ cs ++ es, c.isDigit = true := by
    intro cs es hcs hes c hc
    rcases List.mem_append.mp hc with hc | hc
    · exact hcs c hc
    · exact hes c hc
  unfold Layout.plain
  cases lead with
  | negSucc k =>
    refine ⟨[48], 46 :: Text.Utf8.encode (List.replicate k '0' ++ digits), ?_, ?_, by simp,
      hfraction (happend (hzeros k) hd) (by simp [hne])⟩
    · rfl
    · intro b hb
      rw [List.mem_singleton.mp hb]
      decide
  | ofNat k =>
    simp only
    split
    · have hds := happend hd (hzeros (k + 1 - digits.length))
      refine ⟨Text.Utf8.encode (digits ++ List.replicate (k + 1 - digits.length) '0'), [46, 48],
        ?_, (encode_digits hds).2, encode_ne_nil (by simp [hne]) hds,
        @hfraction ['0'] (by simp) (by simp)⟩
      rw [Text.Utf8.encode_append]
      rfl
    · next hlong =>
      -- both parts of the digits are digits, and neither of them is empty
      have htake : ∀ c ∈ digits.take (k + 1), c.isDigit = true :=
        fun c hc => hd c (List.mem_of_mem_take hc)
      have hdrop : ∀ c ∈ digits.drop (k + 1), c.isDigit = true :=
        fun c hc => hd c (List.mem_of_mem_drop hc)
      refine ⟨Text.Utf8.encode (digits.take (k + 1)), 46 :: Text.Utf8.encode (digits.drop (k + 1)),
        ?_, (encode_digits htake).2, encode_ne_nil (by simp [hne]) htake,
        hfraction hdrop (by simp; omega)⟩
      rw [Text.Utf8.encode_append]
      rfl

/-- A mantissa with an exponent is a digit, perhaps a fraction, and an exponent. -/
theorem scientific_written {digits : List Char} (hd : ∀ c ∈ digits, c.isDigit = true)
    (hne : digits ≠ []) (lead : Int) :
    ∃ ds t, Text.Utf8.encode (documentLayout.scientific digits lead) = ds ++ t ∧ AreDigits ds ∧
      ds ≠ [] ∧ IsTail t := by
  -- the mark of the exponent and its sign are one text in the layout
  have hexponent : ∃ sign, IsSign sign ∧ Text.Utf8.encode
      ((if lead < 0 then documentLayout.fallingMark else documentLayout.risingMark).toList ++
        Nat.toDigits 10 lead.natAbs) = 101 :: (sign ++ digitBytes lead.natAbs) := by
    rw [Text.Utf8.encode_append]
    split
    · exact ⟨[45], Or.inr (Or.inr rfl), rfl⟩
    · exact ⟨[43], Or.inr (Or.inl rfl), rfl⟩
  obtain ⟨sign, hsign, hbytes⟩ := hexponent
  have htail : IsExponent (101 :: (sign ++ digitBytes lead.natAbs)) :=
    ⟨sign, _, rfl, hsign, areDigits_digitBytes _, digitBytes_ne_nil _⟩
  unfold Layout.scientific
  rcases digits with _ | ⟨d, _ | ⟨e, rest⟩⟩
  · exact absurd rfl hne
  · simp only
    refine ⟨Text.Utf8.encode [d], 101 :: (sign ++ digitBytes lead.natAbs), ?_,
      (encode_digits hd).2, encode_ne_nil (by simp) hd, Or.inr (Or.inl htail)⟩
    rw [List.append_assoc, Text.Utf8.encode_append, hbytes]
  · simp only
    have hfirst : ∀ c ∈ [d], c.isDigit = true := by simpa using hd d List.mem_cons_self
    have hrest : ∀ c ∈ e :: rest, c.isDigit = true := fun c hc => hd c (List.mem_cons_of_mem d hc)
    refine ⟨Text.Utf8.encode [d],
      46 :: (Text.Utf8.encode (e :: rest) ++ 101 :: (sign ++ digitBytes lead.natAbs)), ?_,
      (encode_digits hfirst).2, encode_ne_nil (by simp) hfirst,
      Or.inr (Or.inr ⟨_, _, rfl, (encode_digits hrest).2, encode_ne_nil (by simp) hrest,
        Or.inr htail⟩)⟩
    rw [List.append_assoc, Text.Utf8.encode_append, hbytes]
    simp [Text.Utf8.encode, List.append_assoc, utf8EncodeChar_ascii]

end Binary64

/-- A double is written as its sign, digits and what follows them, whichever of the two notations is
chosen for it. -/
theorem Number.written_float (x : Binary64) :
    ∃ ds t, (Number.float x).Written x.negative ds t := by
  have hmagnitude : ∃ ds t, Text.Utf8.encode (Binary64.documentLayout.magnitude x) = ds ++ t ∧
      AreDigits ds ∧ ds ≠ [] ∧ IsTail t := by
    unfold Binary64.Layout.magnitude
    have hd := isDigit_toDigits x.shortest.digits
    have hne : Nat.toDigits 10 x.shortest.digits ≠ [] := Nat.toDigits_ne_nil
    simp only
    split
    · exact Binary64.plain_written hd hne _
    · exact Binary64.scientific_written hd hne _
  obtain ⟨ds, t, hbytes, hd, hne, ht⟩ := hmagnitude
  refine ⟨ds, t, ?_, hd, hne, ht, fun i hi => nomatch hi⟩
  show Text.Utf8.encode x.text.toList = _
  unfold Binary64.text
  rw [String.toList_ofList, Text.Utf8.encode_append, hbytes]
  cases x.negative <;> rfl

/-- Every number is written as a sign, digits, and what may follow them. -/
theorem Number.written (n : Number) : ∃ negative ds t, n.Written negative ds t := by
  cases n with
  | int i => exact ⟨_, _, _, written_int i⟩
  | float x => exact ⟨_, written_float x⟩

/-- What reading a written number gives, after its sign: it stops where the number ends, unless it
refuses it; a whole number reads back. -/
theorem Number.Written.reads {n : Number} {negative : Bool} {ds t r : List UInt8}
    (h : n.Written negative ds t) (hr : Ends r) :
    Leaves (number negative (ds ++ (t ++ r))) r ∧
      (n.Whole → number negative (ds ++ (t ++ r)) = .ok (n, r)) := by
  refine ⟨leaves_number negative h.digits h.nonempty h.tail hr, fun hw => ?_⟩
  cases n with
  | float x => exact absurd hw not_false
  | int i =>
    obtain ⟨rfl, rfl, rfl⟩ := h.int i rfl
    obtain ⟨hlow, hhigh⟩ := hw
    -- within the bounds of a word, each digit fits to those before it
    have h63 : Nat.pow 2 63 = 9223372036854775808 := by decide
    have h64 : Nat.pow 2 64 = 18446744073709551616 := by decide
    have hlimit : wordLimit = 18446744073709551615 := by decide
    rw [h63] at hlow
    rw [h64] at hhigh
    rw [List.nil_append, number_digitBytes _ (by omega) hr]
    unfold wholeNumber
    rw [if_neg (by simp)]
    by_cases hneg : i < 0
    · have hne : i.natAbs ≠ 0 := by omega
      rw [if_neg (by simp [hneg]), if_neg (by rw [h63]; simp only; omega)]
      simp only
      congr 3
      omega
    · rw [if_pos (by simp [hneg])]
      simp only
      congr 3
      omega

end KernelLink
