import KernelLink.Proofs.Json.Numbers
/-!
# The grammar of documents

What a document is, said without a reader: a grammar over characters. Every rule relates the
characters that begin with a spelling, what is spelled, and the characters that are left behind it;
so one rule after another is one relation after another, and a whole text is a spelling with nothing
left. A text may be spelled in many ways, a number too, and blanks may stand around every value.

A number is the one thing whose value the grammar does not fix by itself: its digits are joined as
far as a machine word holds them and the result is rounded, and a number that is too large for a
double has no value.

Main definitions:
* `Json.Blanks`: blanks between tokens.
* `Json.SpellsText`: a text in quotes, with its escapes.
* `Json.Numeral`: a number as it is spelled, and its value.
* `Json.Spells`, `Json.SpellsSpaced`: a value, and a value with blanks around it.
* `Json.Document`: a whole text.

Main results:
* `Json.Spells.append`: a spelling does not depend on what is left behind it.
* `Json.Spells.shorter`: a spelling has at least one character.
-/
namespace KernelLink
namespace Json

open Text.Utf8 (encode)

/-! ## Blanks -/

/-- A blank between tokens: space, tab, line feed or carriage return. -/
def IsGap (c : Char) : Prop := c = ' ' ∨ c = '\t' ∨ c = '\n' ∨ c = '\r'

/-- Any number of blanks, and `t` behind them. -/
inductive Blanks : List Char → List Char → Prop where
  /-- None. -/
  | none (t : List Char) : Blanks t t
  /-- One more. -/
  | one {c : Char} {s t : List Char} (hc : IsGap c) (h : Blanks s t) : Blanks (c :: s) t

/-! ## Texts -/

/-- The value of a digit in base sixteen. -/
def hexDigit? (c : Char) : Option Nat :=
  if '0' ≤ c ∧ c ≤ '9' then some (c.toNat - '0'.toNat)
  else if 'a' ≤ c ∧ c ≤ 'f' then some (c.toNat - 'a'.toNat + 10)
  else if 'A' ≤ c ∧ c ≤ 'F' then some (c.toNat - 'A'.toNat + 10)
  else none

/-- Four digits in base sixteen. -/
inductive SpellsUnit : List Char → Nat → List Char → Prop where
  /-- The digits, the greatest first. -/
  | digits {a b c d : Char} {w x y z : Nat} (ha : hexDigit? a = some w) (hb : hexDigit? b = some x)
      (hc : hexDigit? c = some y) (hd : hexDigit? d = some z) (t : List Char) :
      SpellsUnit (a :: b :: c :: d :: t) (((w * 16 + x) * 16 + y) * 16 + z) t

/-- The escapes of one letter, with what they stand for. -/
def letterEscapes : List (Char × Char) :=
  [('"', '"'), ('\\', '\\'), ('/', '/'), ('b', '\x08'), ('f', '\x0c'), ('n', '\n'), ('r', '\r'),
    ('t', '\t')]

/-- One character of a text. -/
inductive SpellsChar : List Char → Char → List Char → Prop where
  /-- A character that stands for itself. -/
  | plain {c : Char} (hquote : c ≠ '"') (hslash : c ≠ '\\') (hcontrol : 0x20 ≤ c.toNat)
      (t : List Char) : SpellsChar (c :: t) c t
  /-- An escape of one letter. -/
  | letter {e c : Char} (h : (e, c) ∈ letterEscapes) (t : List Char) :
      SpellsChar ('\\' :: e :: t) c t
  /-- A character by number. The numbers of surrogates are no characters. -/
  | unit {s t : List Char} {n : Nat} (h : SpellsUnit s n t) (hn : n < 0xD800 ∨ 0xDFFF < n) :
      SpellsChar ('\\' :: 'u' :: s) (Char.ofNat n) t
  /-- A character past U+FFFF by the numbers of a pair of surrogates. -/
  | pair {s s' t : List Char} {h l : Nat} (hhigh : SpellsUnit s h ('\\' :: 'u' :: s'))
      (hlow : SpellsUnit s' l t) (hh : 0xD800 ≤ h ∧ h ≤ 0xDBFF) (hl : 0xDC00 ≤ l ∧ l ≤ 0xDFFF) :
      SpellsChar ('\\' :: 'u' :: s) (Char.ofNat (0x10000 + (h - 0xD800) * 1024 + (l - 0xDC00))) t

/-- The characters of a text and its closing quote. -/
inductive SpellsChars : List Char → List Char → List Char → Prop where
  /-- The quote. -/
  | quote (t : List Char) : SpellsChars ('"' :: t) [] t
  /-- A character, and the others. -/
  | char {s s' t : List Char} {c : Char} {cs : List Char} (hc : SpellsChar s c s')
      (hcs : SpellsChars s' cs t) : SpellsChars s (c :: cs) t

/-- A text in quotes. -/
inductive SpellsText : List Char → String → List Char → Prop where
  /-- Its opening quote, and what follows that. -/
  | quoted {s t cs : List Char} (h : SpellsChars s cs t) :
      SpellsText ('"' :: s) (String.ofList cs) t

/-! ## Numbers -/

/-- An exponent as it is spelled. -/
structure Exponent where
  /-- Is its mark the capital letter? -/
  capital : Bool
  /-- The sign, if there is one. -/
  sign : Option Char
  /-- The digits. -/
  digits : List Char

/-- The characters of an exponent. -/
def Exponent.chars (e : Exponent) : List Char :=
  (if e.capital then 'E' else 'e') :: (e.sign.toList ++ e.digits)

/-- A sign is `+` or `-`, and there are digits. -/
structure Exponent.WellFormed (e : Exponent) : Prop where
  /-- The sign. -/
  sign : e.sign = none ∨ e.sign = some '+' ∨ e.sign = some '-'
  /-- There are digits. -/
  nonempty : e.digits ≠ []
  /-- They are digits. -/
  digits : ∀ c ∈ e.digits, c.isDigit = true

/-- The power of ten of an exponent; `none` past `2 ^ 31 - 1`. -/
def Exponent.power? (e : Exponent) : Option Int :=
  let n := decimalFrom 0 (encode e.digits)
  if Nat.pow 2 31 - 1 < n then none else some (if e.sign = some '-' then -(n : Int) else n)

/-- A number as it is spelled. -/
structure Numeral where
  /-- Is there a minus in front? -/
  negative : Bool
  /-- The digits before the point. -/
  whole : List Char
  /-- The digits after the point; there is no point without digits. -/
  fraction : List Char
  /-- The exponent, if there is one. -/
  exponent : Option Exponent

namespace Numeral

/-- The characters behind the digits before the point. -/
def tail (n : Numeral) : List Char :=
  (if n.fraction = [] then [] else '.' :: n.fraction) ++ n.exponent.elim [] Exponent.chars

/-- The characters of a number. -/
def chars (n : Numeral) : List Char :=
  (if n.negative then ['-'] else []) ++ (n.whole ++ n.tail)

/-- There are digits before the point, with no zero in front of others. -/
structure WellFormed (n : Numeral) : Prop where
  /-- There are digits before the point. -/
  nonempty : n.whole ≠ []
  /-- They are digits. -/
  whole : ∀ c ∈ n.whole, c.isDigit = true
  /-- A zero in front is the only one. -/
  leading : n.whole.head? = some '0' → n.whole = ['0']
  /-- Digits after the point. -/
  fraction : ∀ c ∈ n.fraction, c.isDigit = true
  /-- The exponent. -/
  exponent : ∀ e, n.exponent = some e → e.WellFormed

/-- A double, if it is not too large. -/
def double? (negative : Bool) (d : Digits) : Option Number :=
  (Binary64.ofDecimal d.kept d.power).map fun x => .float { x with negative := negative }

/-- The value of digits without point and exponent: an integer if it fits a machine word. There is
no negative zero among the integers. -/
def integer? (negative : Bool) (d : Digits) : Option Number :=
  if d.power ≠ 0 then double? negative d
  else if negative then
    if d.kept = 0 ∨ Nat.pow 2 63 < d.kept then some (.float (Binary64.ofNat d.kept).neg)
    else some (.int (-d.kept))
  else some (.int d.kept)

/-- The value of digits with an exponent. One past the limit leaves nothing of the digits, unless
it is positive and the digits are not zero. -/
def scaled? (negative : Bool) (d : Digits) (e : Exponent) : Option Number :=
  match e.power? with
  | some k => double? negative { d with power := d.power + k }
  | none =>
    if d.kept ≠ 0 ∧ e.sign ≠ some '-' then none
    else some (.float { Binary64.zero with negative := negative })

/-- The value of a number whose digits before the point have been joined. -/
def valueFrom (n : Numeral) (d : Digits) : Option Number :=
  match n.exponent with
  | some e => scaled? n.negative (d.joinFraction (encode n.fraction)) e
  | none =>
    if n.fraction = [] then integer? n.negative d
    else double? n.negative (d.joinFraction (encode n.fraction))

/-- The value of a number; one that is too large for a double has none. -/
def value? (n : Numeral) : Option Number := n.valueFrom (Digits.joinWhole 0 (encode n.whole))

end Numeral

/-! ## Values -/

mutual
/-- One value. -/
inductive Spells : List Char → Json → List Char → Prop where
  /-- The empty value. -/
  | null (t : List Char) : Spells ('n' :: 'u' :: 'l' :: 'l' :: t) .null t
  /-- The truth value `true`. -/
  | true (t : List Char) : Spells ('t' :: 'r' :: 'u' :: 'e' :: t) (.bool true) t
  /-- The truth value `false`. -/
  | false (t : List Char) : Spells ('f' :: 'a' :: 'l' :: 's' :: 'e' :: t) (.bool false) t
  /-- A number in range. -/
  | num {n : Numeral} {v : Number} (hn : n.WellFormed) (hv : n.value? = some v) (t : List Char) :
      Spells (n.chars ++ t) (.num v) t
  /-- A text. -/
  | str {s t : List Char} {k : String} (h : SpellsText s k t) : Spells s (.str k) t
  /-- An empty sequence. -/
  | noItems {s t : List Char} (h : Blanks s (']' :: t)) : Spells ('[' :: s) (.arr []) t
  /-- A sequence. -/
  | arr {s t : List Char} {vs : List Json} (h : SpellsItems s vs (']' :: t)) :
      Spells ('[' :: s) (.arr vs) t
  /-- An empty object. -/
  | noMembers {s t : List Char} (h : Blanks s ('}' :: t)) : Spells ('{' :: s) (.obj []) t
  /-- An object. -/
  | obj {s t : List Char} {ms : List (String × Json)} (h : SpellsMembers s ms ('}' :: t)) :
      Spells ('{' :: s) (.obj ms) t

/-- One value with blanks around it. -/
inductive SpellsSpaced : List Char → Json → List Char → Prop where
  /-- The blanks, the value, and more blanks. -/
  | mk {s s₁ s₂ t : List Char} {v : Json} (hfront : Blanks s s₁) (h : Spells s₁ v s₂)
      (hback : Blanks s₂ t) : SpellsSpaced s v t

/-- Items with commas between them. -/
inductive SpellsItems : List Char → List Json → List Char → Prop where
  /-- The last item. -/
  | last {s t : List Char} {v : Json} (h : SpellsSpaced s v t) : SpellsItems s [v] t
  /-- An item in front of others. -/
  | cons {s s' t : List Char} {v : Json} {vs : List Json} (h : SpellsSpaced s v (',' :: s'))
      (hs : SpellsItems s' vs t) : SpellsItems s (v :: vs) t

/-- A key, a colon and a value. -/
inductive SpellsMember : List Char → String → Json → List Char → Prop where
  /-- The key, with blanks around it, and the value. -/
  | mk {s s₁ s₂ s₃ t : List Char} {k : String} {v : Json} (hfront : Blanks s s₁)
      (hk : SpellsText s₁ k s₂) (hback : Blanks s₂ (':' :: s₃)) (hv : SpellsSpaced s₃ v t) :
      SpellsMember s k v t

/-- Members with commas between them. -/
inductive SpellsMembers : List Char → List (String × Json) → List Char → Prop where
  /-- The last member. -/
  | last {s t : List Char} {k : String} {v : Json} (h : SpellsMember s k v t) :
      SpellsMembers s [(k, v)] t
  /-- A member in front of others. -/
  | cons {s s' t : List Char} {k : String} {v : Json} {ms : List (String × Json)}
      (h : SpellsMember s k v (',' :: s')) (hs : SpellsMembers s' ms t) :
      SpellsMembers s ((k, v) :: ms) t
end

/-- A whole text: one value with nothing but blanks around it. -/
def Document (s : List Char) (v : Json) : Prop := SpellsSpaced s v []

/-! ## What is left behind a spelling -/

/-- Blanks in front of a text stay blanks when more stands behind it. This holds of every rule of
the grammar, since no rule looks at what is left. -/
theorem Blanks.append {s t : List Char} (h : Blanks s t) (r : List Char) :
    Blanks (s ++ r) (t ++ r) := by
  induction h with
  | none t => exact .none _
  | one hc _ ih => exact .one hc ih

theorem Blanks.trans {s t u : List Char} (h : Blanks s t) (h' : Blanks t u) : Blanks s u := by
  induction h with
  | none t => exact h'
  | one hc _ ih => exact .one hc (ih h')

theorem Blanks.le {s t : List Char} (h : Blanks s t) : t.length ≤ s.length := by
  induction h with
  | none t => exact Nat.le_refl _
  | one _ _ ih => exact Nat.le_succ_of_le ih

/-- The four digits of an escape are the same, whatever stands behind them. -/
theorem SpellsUnit.append {s t : List Char} {n : Nat} (h : SpellsUnit s n t) (r : List Char) :
    SpellsUnit (s ++ r) n (t ++ r) := by
  cases h with
  | digits ha hb hc hd t => exact .digits ha hb hc hd (t ++ r)

theorem SpellsUnit.length {s t : List Char} {n : Nat} (h : SpellsUnit s n t) :
    s.length = t.length + 4 := by
  cases h with
  | digits => rfl

/-- A character inside a text is spelled in the same way, whatever stands behind it; a pair of
escapes is two units. -/
theorem SpellsChar.append {s t : List Char} {c : Char} (h : SpellsChar s c t) (r : List Char) :
    SpellsChar (s ++ r) c (t ++ r) := by
  cases h with
  | plain hquote hslash hcontrol t => exact .plain hquote hslash hcontrol (t ++ r)
  | letter h t => exact .letter h (t ++ r)
  | unit h hn => exact .unit (h.append r) hn
  | pair hhigh hlow hh hl => exact .pair (hhigh.append r) (hlow.append r) hh hl

/-- A character is spelled with at least one, so reading characters comes to an end. -/
theorem SpellsChar.shorter {s t : List Char} {c : Char} (h : SpellsChar s c t) :
    t.length < s.length := by
  cases h with
  | plain => exact Nat.lt_succ_self _
  | letter =>
    rw [List.length_cons, List.length_cons]
    omega
  | unit h =>
    have := h.length
    rw [List.length_cons, List.length_cons]
    omega
  | pair hhigh hlow =>
    have := hhigh.length
    have := hlow.length
    simp only [List.length_cons] at *
    omega

theorem SpellsChars.append {s t cs : List Char} (h : SpellsChars s cs t) (r : List Char) :
    SpellsChars (s ++ r) cs (t ++ r) := by
  induction h with
  | quote t => exact .quote (t ++ r)
  | char hc _ ih => exact .char (hc.append r) ih

theorem SpellsChars.shorter {s t cs : List Char} (h : SpellsChars s cs t) :
    t.length < s.length := by
  induction h with
  | quote t => exact Nat.lt_succ_self _
  | char hc _ ih => exact Nat.lt_trans ih hc.shorter

/-- A text is spelled in the same way, whatever stands behind its closing quote. -/
theorem SpellsText.append {s t : List Char} {k : String} (h : SpellsText s k t) (r : List Char) :
    SpellsText (s ++ r) k (t ++ r) := by
  cases h with
  | quoted h => exact .quoted (h.append r)

theorem SpellsText.shorter {s t : List Char} {k : String} (h : SpellsText s k t) :
    t.length < s.length := by
  cases h with
  | quoted h => exact Nat.lt_succ_of_lt h.shorter

mutual
/-- A spelling does not depend on what is left behind it: each rule holds of more as it holds of
what stands there. -/
theorem Spells.append (r : List Char) : ∀ {s t : List Char} {v : Json}, Spells s v t →
    Spells (s ++ r) v (t ++ r)
  | _, _, _, .null t => .null (t ++ r)
  | _, _, _, .true t => .true (t ++ r)
  | _, _, _, .false t => .false (t ++ r)
  | _, _, _, .num (n := n) hn hv t => by
    rw [List.append_assoc]
    exact .num hn hv (t ++ r)
  | _, _, _, .str h => .str (h.append r)
  | _, _, _, .noItems h => .noItems (h.append r)
  | _, _, _, .arr h => .arr (h.append r)
  | _, _, _, .noMembers h => .noMembers (h.append r)
  | _, _, _, .obj h => .obj (h.append r)

/-- A value with the blanks around it is spelled in the same way, as long as what follows begins
behind these blanks. -/
theorem SpellsSpaced.append (r : List Char) : ∀ {s t : List Char} {v : Json}, SpellsSpaced s v t →
    SpellsSpaced (s ++ r) v (t ++ r)
  | _, _, _, .mk hfront h hback => .mk (hfront.append r) (h.append r) (hback.append r)

/-- The items of a list up to its closing bracket. The five statements go along each other, as the
rules do. -/
theorem SpellsItems.append (r : List Char) : ∀ {s t : List Char} {vs : List Json},
    SpellsItems s vs t → SpellsItems (s ++ r) vs (t ++ r)
  | _, _, _, .last h => .last (h.append r)
  | _, _, _, .cons h hs => .cons (h.append r) (hs.append r)

theorem SpellsMember.append (r : List Char) : ∀ {s t : List Char} {k : String} {v : Json},
    SpellsMember s k v t → SpellsMember (s ++ r) k v (t ++ r)
  | _, _, _, _, .mk hfront hk hback hv =>
    .mk (hfront.append r) (hk.append r) (hback.append r) (hv.append r)

theorem SpellsMembers.append (r : List Char) : ∀ {s t : List Char} {ms : List (String × Json)},
    SpellsMembers s ms t → SpellsMembers (s ++ r) ms (t ++ r)
  | _, _, _, .last h => .last (h.append r)
  | _, _, _, .cons h hs => .cons (h.append r) (hs.append r)
end

theorem Numeral.WellFormed.chars_pos {n : Numeral} (h : n.WellFormed) : 0 < n.chars.length := by
  have hwhole : 0 < n.whole.length := List.length_pos_iff.mpr h.nonempty
  unfold Numeral.chars
  rw [List.length_append, List.length_append]
  omega

mutual
/-- A spelling has at least one character, so a reader that goes on behind it has less to read. -/
theorem Spells.shorter : ∀ {s t : List Char} {v : Json}, Spells s v t → t.length < s.length
  | _, _, _, .null t => by simp only [List.length_cons]; omega
  | _, _, _, .true t => by simp only [List.length_cons]; omega
  | _, _, _, .false t => by simp only [List.length_cons]; omega
  | _, _, _, .num hn _ t => by
    have := hn.chars_pos
    rw [List.length_append]
    omega
  | _, _, _, .str h => h.shorter
  | _, _, _, .noItems h => Nat.lt_succ_of_lt h.le
  | _, _, _, .arr h => Nat.lt_succ_of_lt (Nat.le_trans (Nat.le_add_right _ _) h.shorter)
  | _, _, _, .noMembers h => Nat.lt_succ_of_lt h.le
  | _, _, _, .obj h => Nat.lt_succ_of_lt (Nat.le_trans (Nat.le_add_right _ _) h.shorter)

theorem SpellsSpaced.shorter : ∀ {s t : List Char} {v : Json}, SpellsSpaced s v t →
    t.length < s.length
  | _, _, _, .mk hfront h hback =>
    Nat.lt_of_le_of_lt hback.le (Nat.lt_of_lt_of_le h.shorter hfront.le)

/-- Every item has at least one character, so there are no more items than characters; this bounds
the rounds of the reader's loop. -/
theorem SpellsItems.shorter : ∀ {s t : List Char} {vs : List Json}, SpellsItems s vs t →
    t.length + vs.length ≤ s.length
  | _, _, _, .last h => h.shorter
  | _, _, _, .cons h hs => by
    have := h.shorter
    have := hs.shorter
    simp only [List.length_cons] at *
    omega

theorem SpellsMember.shorter : ∀ {s t : List Char} {k : String} {v : Json},
    SpellsMember s k v t → t.length < s.length
  | _, _, _, _, .mk hfront hk hback hv => by
    have := hfront.le
    have := hk.shorter
    have := hback.le
    have := hv.shorter
    simp only [List.length_cons] at *
    omega

/-- Every member has at least one character, so there are no more members than characters. -/
theorem SpellsMembers.shorter : ∀ {s t : List Char} {ms : List (String × Json)},
    SpellsMembers s ms t → t.length + ms.length ≤ s.length
  | _, _, _, .last h => h.shorter
  | _, _, _, .cons h hs => by
    have := h.shorter
    have := hs.shorter
    simp only [List.length_cons] at *
    omega
end

end Json
end KernelLink
