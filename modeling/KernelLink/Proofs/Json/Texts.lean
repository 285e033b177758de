import KernelLink.Json.Printer
import KernelLink.Json.Reader
import KernelLink.Proofs.Text.ReadBack
/-!
# Texts read back

Between its quotes a text is written with the quote, the backslash and the controls escaped. Read
one byte at a time, an escape gives the bytes of the character that it stands for, and every other
byte stands for itself; so a text reads back as itself.

Main definition:
* `Json.IsInk`: bytes that stand for themselves inside a text.

Main results:
* `Json.quotedBytes_escapedChar`: one character.
* `Json.quotedText_quotedChars`: a whole text.
-/
namespace KernelLink
namespace Json

open Text.Utf8 (encode encode_cons encode_append decode_encode)

/-! ## Bytes and characters -/

theorem toNat_glyph (b : UInt8) : (glyph b).toNat = b.toNat := rfl

/-- Below 0x80 a character is one byte, which is its number. -/
theorem utf8EncodeChar_ascii {c : Char} (hc : c.toNat < 0x80) :
    String.utf8EncodeChar c = [UInt8.ofNat c.toNat] := by
  unfold String.utf8EncodeChar
  have hv : c.val.toNat ≤ 0x7f := Nat.le_of_lt_succ hc
  simp only [hv, if_true]
  rfl

/-- So such a character is the first byte of what begins with it. -/
theorem encode_cons_ascii {c : Char} (hc : c.toNat < 0x80) (cs : List Char) :
    encode (c :: cs) = UInt8.ofNat c.toNat :: encode cs := by
  rw [encode_cons, utf8EncodeChar_ascii hc]
  rfl

theorem glyph_ofNat {c : Char} (hc : c.toNat < 0x80) : glyph (UInt8.ofNat c.toNat) = c := by
  refine Char.toNat_inj.mp ?_
  rw [toNat_glyph]
  simp
  omega

/-- From 0x80 on no byte of a character is below 0x80, so none of them is mistaken for a quote or a
backslash. -/
theorem utf8EncodeChar_wide {c : Char} (hc : 0x80 ≤ c.toNat) :
    ∀ b ∈ String.utf8EncodeChar c, 0x80 ≤ b.toNat := by
  have hv : ¬ c.val.toNat ≤ 0x7f := Nat.not_le_of_lt hc
  intro b hb
  unfold String.utf8EncodeChar at hb
  simp only [hv, if_false] at hb
  split at hb
  · simp at hb; rcases hb with rfl | rfl <;> simp <;> omega
  · split at hb
    · simp at hb; rcases hb with rfl | rfl | rfl <;> simp <;> omega
    · simp at hb; rcases hb with rfl | rfl | rfl | rfl <;> simp <;> omega

/-! ## Texts -/

/-- Neither a quote nor a backslash nor a control. -/
def IsInk (b : UInt8) : Prop := glyph b ≠ '"' ∧ glyph b ≠ '\\' ∧ ¬ b < 0x20

/-- Bytes that need no escape stand for themselves. Induction on the bytes, with those that were
found before left open. -/
theorem quotedBytes_ink (found bs r : List UInt8) (h : ∀ b ∈ bs, IsInk b) :
    quotedBytes found 0 (bs ++ r) = quotedBytes (bs.reverse ++ found) 0 r := by
  induction bs generalizing found with
  | nil => rfl
  | cons b bs ih =>
    obtain ⟨hquote, hslash, hctl⟩ := h b List.mem_cons_self
    rw [List.cons_append, quotedBytes, if_neg hquote, if_neg hslash, if_neg hctl,
      ih _ fun b' hb' => h b' (List.mem_cons_of_mem b hb'), List.reverse_cons, List.append_assoc]
    rfl

/-- The bytes of a character that is not escaped need no escape either: a single byte is the
character itself, and all others are above 0x80. -/
theorem isInk_utf8EncodeChar {c : Char} (hq : c ≠ '"') (hs : c ≠ '\\') (hc : 0x20 ≤ c.toNat) :
    ∀ b ∈ String.utf8EncodeChar c, IsInk b := by
  intro b hb
  by_cases ha : c.toNat < 0x80
  · rw [utf8EncodeChar_ascii ha, List.mem_singleton] at hb
    subst hb
    refine ⟨by rw [glyph_ofNat ha]; exact hq, by rw [glyph_ofNat ha]; exact hs, ?_⟩
    rw [UInt8.lt_iff_toNat_lt]
    simp
    omega
  · have hwide := utf8EncodeChar_wide (Nat.le_of_not_lt ha) b hb
    have hne : ∀ d : Char, d.toNat < 0x80 → glyph b ≠ d := by
      rintro d hd rfl
      rw [toNat_glyph] at hd
      omega
    refine ⟨hne _ (by decide), hne _ (by decide), ?_⟩
    rw [UInt8.lt_iff_toNat_lt]
    have : (0x20 : UInt8).toNat = 0x20 := rfl
    omega

/-- A backslash and what an escape needs are read as the character of the escape. -/
theorem quotedBytes_escape {found es r : List UInt8} {c : Char}
    (h : escape (es ++ r) = .ok (c, es.length)) :
    quotedBytes found 0 (92 :: (es ++ r)) =
      quotedBytes ((String.utf8EncodeChar c).reverse ++ found) 0 r := by
  have hskip : ∀ (found es : List UInt8),
      quotedBytes found es.length (es ++ r) = quotedBytes found 0 r := by
    intro found es
    induction es with
    | nil => rfl
    | cons e es ih => exact ih
  have hquote : glyph 92 ≠ '"' := by decide
  have hslash : glyph 92 = '\\' := by decide
  rw [quotedBytes, if_neg hquote, if_pos hslash, h]
  exact hskip _ es

/-- The four digits of a control character give its number: two zeros and the two digits of a number
below 32. -/
theorem hexQuad_control {n : Nat} (hn : n < 0x20) (r : List UInt8) :
    hexQuad (encode ['0', '0', hexDigit (n / 16), hexDigit (n % 16)] ++ r) = .ok (n, r) := by
  have hdigits : ∀ n < 0x20, encode ['0', '0', hexDigit (n / 16), hexDigit (n % 16)] =
      [48, 48, UInt8.ofNat (hexDigit (n / 16)).toNat, UInt8.ofNat (hexDigit (n % 16)).toNat] := by
    decide
  have hvalues : ∀ n < 0x20, hexValue (UInt8.ofNat (hexDigit (n / 16)).toNat) = some (n / 16) ∧
      hexValue (UInt8.ofNat (hexDigit (n % 16)).toNat) = some (n % 16) := by decide
  have hzero : hexValue 48 = some 0 := by decide
  rw [hdigits n hn]
  simp only [List.cons_append, List.nil_append, hexQuad, hzero, (hvalues n hn).1,
    (hvalues n hn).2]
  congr 2
  omega

/-- An escaped character reads as the bytes of the character. There is one case for each escape with
a letter, one for controls, and one for all that is written as it is. -/
theorem quotedBytes_escapedChar (found : List UInt8) (c : Char) (r : List UInt8) :
    quotedBytes found 0 (encode (escapedChar c) ++ r) =
      quotedBytes ((String.utf8EncodeChar c).reverse ++ found) 0 r := by
  unfold escapedChar
  split
  case h_8 hquote hslash _ _ _ _ _ =>
    split
    · next hc =>
      have hmid : ¬ (0xDC00 ≤ c.toNat ∧ c.toNat ≤ 0xDFFF) := by omega
      have hlow : c.toNat < 0xD800 ∨ 0xDBFF < c.toNat := by omega
      -- a control is written by its number, whose first two digits are zeros
      have hescape : escape ((117 :: encode ['0', '0', hexDigit (c.toNat / 16),
          hexDigit (c.toNat % 16)]) ++ r) = .ok (c, 5) := by
        show (numbered (encode ['0', '0', hexDigit (c.toNat / 16),
          hexDigit (c.toNat % 16)] ++ r)).map _ = _
        rw [numbered, hexQuad_control hc]
        simp only [bind, Except.bind, if_neg hmid, if_pos hlow, Char.ofNat_toNat]
        rfl
      have hlen : ∀ n < 0x20, (117 :: encode ['0', '0', hexDigit (n / 16),
          hexDigit (n % 16)]).length = 5 := by decide
      rw [encode_cons_ascii (by decide), encode_cons_ascii (by decide)]
      refine quotedBytes_escape ?_
      rw [← hlen c.toNat hc] at hescape
      exact hescape
    · next hc =>
      rw [show encode [c] = String.utf8EncodeChar c from List.append_nil _]
      exact quotedBytes_ink _ _ _ (isInk_utf8EncodeChar hquote hslash (Nat.le_of_not_lt hc))
  all_goals exact @quotedBytes_escape found [_] r _ rfl

/-- The escaped characters of a text are read as the text, up to the closing quote. Induction on the
text, with what was found before left open. -/
theorem quotedBytes_flatMap (found : List UInt8) (cs : List Char) (r : List UInt8) :
    quotedBytes found 0 (encode (cs.flatMap escapedChar) ++ 34 :: r) =
      .ok (found.reverse ++ encode cs, r) := by
  induction cs generalizing found with
  | nil =>
    rw [show encode ([] : List Char) = [] from rfl, List.append_nil]
    rfl
  | cons c cs ih =>
    rw [List.flatMap_cons, encode_append, List.append_assoc, quotedBytes_escapedChar, ih,
      encode_cons, List.reverse_append, List.reverse_reverse, List.append_assoc]

/-- A text reads back, after its opening quote: its bytes are found up to the closing one, and are
decoded to the text. -/
theorem quotedText_quotedChars (s : String) (r : List UInt8) :
    quotedText (encode (s.toList.flatMap escapedChar) ++ 34 :: r) = .ok (s, r) := by
  unfold quotedText
  rw [quotedBytes_flatMap, List.reverse_nil, List.nil_append]
  simp only [decode_encode, String.ofList_toList]

theorem encode_quotedChars (s : String) (r : List UInt8) :
    encode (quotedChars s) ++ r = 34 :: (encode (s.toList.flatMap escapedChar) ++ 34 :: r) := by
  unfold quotedChars
  rw [encode_cons_ascii (by decide), encode_append, List.cons_append, List.append_assoc]
  rfl

end Json
end KernelLink
