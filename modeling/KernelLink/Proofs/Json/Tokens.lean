import KernelLink.Proofs.Json.Grammar
import KernelLink.Proofs.Json.ReadBack
/-!
# Tokens against the grammar

The readers of blanks, words, texts and the marks between values take exactly what the grammar
spells, and give what it spells: on the bytes of a spelling they succeed and leave the bytes behind
it, and where they succeed a spelling stands. The readers work on bytes and the grammar on
characters; since every mark of the grammar is a single byte, a byte below 0x80 is a character.

Main results:
* `Json.encode_eq_cons`: a byte below 0x80 is a character.
* `Json.Blanks.skipSpace`, `Json.blanks_of_skipSpace`: blanks.
* `Json.SpellsText.quotedText`, `Json.spellsText_of_quotedText`: texts.
-/
namespace KernelLink
namespace Json

open Text.Utf8 (encode encode_cons encode_append decode_encode)

/-! ## Bytes and characters -/

/-- A byte that stands for a character below 0x80 is below 0x80 itself. -/
theorem glyph_lt {b : UInt8} {c : Char} (h : glyph b = c) (hc : c.toNat < 0x80) :
    b.toNat < 0x80 := by
  rw [← toNat_glyph, h]
  exact hc

/-- A byte below 0x80 is a character of its own, since the bytes of all longer ones lie above. -/
theorem encode_eq_cons {s : List Char} {b : UInt8} {r : List UInt8} (h : encode s = b :: r)
    (hb : b.toNat < 0x80) : ∃ t, s = glyph b :: t ∧ r = encode t := by
  cases s with
  | nil => exact nomatch h
  | cons c s =>
    rw [encode_cons] at h
    by_cases hc : c.toNat < 0x80
    · rw [utf8EncodeChar_ascii hc, List.singleton_append] at h
      obtain ⟨rfl, rfl⟩ := List.cons.inj h
      exact ⟨s, by rw [glyph_ofNat hc], rfl⟩
    · -- the first byte of a wide character is not below 0x80
      have hwide := utf8EncodeChar_wide (Nat.le_of_not_lt hc)
      obtain ⟨b', bs, hbs⟩ := List.exists_cons_of_ne_nil (String.utf8EncodeChar_ne_nil (c := c))
      rw [hbs] at h hwide
      obtain ⟨rfl, -⟩ := List.cons.inj h
      have := hwide b' List.mem_cons_self
      omega

/-- The same for a byte that is known by its character, as the reader compares characters. -/
theorem encode_eq_glyph {s : List Char} {b : UInt8} {r : List UInt8} (h : encode s = b :: r)
    {c : Char} (hb : glyph b = c) (hc : c.toNat < 0x80) : ∃ t, s = c :: t ∧ r = encode t := by
  obtain ⟨t, hs, hr⟩ := encode_eq_cons h (glyph_lt hb hc)
  exact ⟨t, by rw [hs, hb], hr⟩

theorem encode_eq_nil {s : List Char} (h : encode s = []) : s = [] := by
  cases s with
  | nil => rfl
  | cons c s =>
    rw [encode_cons, List.append_eq_nil_iff] at h
    exact absurd h.1 String.utf8EncodeChar_ne_nil

/-! ## Blanks -/

/-- The blanks of documents are the same four as bytes and as characters. -/
theorem isGap_iff {b : UInt8} : isSpace b = true ↔ IsGap (glyph b) := by
  unfold isSpace IsGap
  constructor
  · split
    · next h => exact fun _ => Or.inl h
    · next h => exact fun _ => Or.inr (Or.inl h)
    · next h => exact fun _ => Or.inr (Or.inr (Or.inl h))
    · next h => exact fun _ => Or.inr (Or.inr (Or.inr h))
    · exact fun h => nomatch h
  · rintro (h | h | h | h)
    all_goals
      rw [h]
      rfl

theorem IsGap.lt {c : Char} (h : IsGap c) : c.toNat < 0x80 := by
  rcases h with rfl | rfl | rfl | rfl <;> decide

/-- The reader passes over blanks, by induction on how many there are. -/
theorem Blanks.skipSpace {s t : List Char} (h : Blanks s t) :
    skipSpace (encode s) = skipSpace (encode t) := by
  induction h with
  | none t => rfl
  | @one c s t hc _ ih =>
    have hspace : isSpace (UInt8.ofNat c.toNat) = true := by
      rw [isGap_iff, glyph_ofNat hc.lt]
      exact hc
    rw [encode_cons_ascii hc.lt, ← ih]
    unfold Json.skipSpace
    rw [List.dropWhile_cons_of_pos hspace]

/-- What the reader passes over are blanks, and it stops where none stands. -/
theorem blanks_of_skipSpace (s : List Char) :
    ∃ t, Blanks s t ∧ skipSpace (encode s) = encode t := by
  induction s with
  | nil => exact ⟨[], .none [], rfl⟩
  | cons c s ih =>
    by_cases hc : IsGap c
    · obtain ⟨t, ht, hs⟩ := ih
      exact ⟨t, .one hc ht, by rw [(Blanks.one hc ht).skipSpace, ← ht.skipSpace, hs]⟩
    · refine ⟨c :: s, .none _, ?_⟩
      obtain ⟨b, r, hb⟩ := List.exists_cons_of_ne_nil (l := encode (c :: s))
        fun h => nomatch encode_eq_nil h
      have hspace : isSpace b = false := by
        rw [Bool.eq_false_iff, Ne, isGap_iff]
        intro hgap
        obtain ⟨t, hs, -⟩ := encode_eq_cons hb (by rw [← toNat_glyph]; exact hgap.lt)
        obtain ⟨rfl, -⟩ := List.cons.inj hs
        exact hc hgap
      rw [hb, skipSpace_cons hspace]

/-- A byte behind blanks is where the reader goes on. -/
theorem Blanks.skipSpace_cons {s t : List Char} {c : Char} (h : Blanks s (c :: t))
    (hc : c.toNat < 0x80) (hgap : ¬ IsGap c) :
    Json.skipSpace (encode s) = UInt8.ofNat c.toNat :: encode t := by
  have hspace : isSpace (UInt8.ofNat c.toNat) = false := by
    rw [Bool.eq_false_iff, Ne, isGap_iff, glyph_ofNat hc]
    exact hgap
  rw [h.skipSpace, encode_cons_ascii hc, Json.skipSpace_cons hspace]

/-- The character that the reader finds behind blanks stands there, with blanks in front of it. -/
theorem blanks_of_skipSpace_cons {s : List Char} {b : UInt8} {r : List UInt8}
    (h : skipSpace (encode s) = b :: r) {c : Char} (hb : glyph b = c) (hc : c.toNat < 0x80) :
    ∃ t, Blanks s (c :: t) ∧ r = encode t := by
  obtain ⟨t, ht, hs⟩ := blanks_of_skipSpace s
  rw [hs] at h
  obtain ⟨t', rfl, hr⟩ := encode_eq_glyph h hb hc
  exact ⟨t', ht, hr⟩

/-! ## Words -/

/-- A word is read where it stands, whatever stands behind it; its letters are single bytes. -/
theorem word_encode (meaning : Json) {w : List Char} (hw : ∀ c ∈ w, c.toNat < 0x80)
    (t : List Char) : word meaning w (encode (w ++ t)) = .ok (meaning, encode t) := by
  induction w with
  | nil => rfl
  | cons c w ih =>
    have hc : c.toNat < 0x80 := hw c List.mem_cons_self
    rw [List.cons_append, encode_cons_ascii hc, word, if_pos (glyph_ofNat hc)]
    exact ih fun d hd => hw d (List.mem_cons_of_mem c hd)

/-- Where a word is read it stands, so nothing else means the same. -/
theorem of_word {meaning v : Json} {w : List Char} (hw : ∀ c ∈ w, c.toNat < 0x80) {s : List Char}
    {r : List UInt8} (h : word meaning w (encode s) = .ok (v, r)) :
    v = meaning ∧ ∃ t, s = w ++ t ∧ r = encode t := by
  induction w generalizing s with
  | nil =>
    rw [word, Except.ok.injEq, Prod.mk.injEq] at h
    exact ⟨h.1.symm, s, rfl, h.2.symm⟩
  | cons c w ih =>
    have hc : c.toNat < 0x80 := hw c List.mem_cons_self
    rcases hs : encode s with _ | ⟨b, r'⟩
    · rw [hs, word] at h
      exact nomatch h
    · rw [hs, word] at h
      split at h
      · next hb =>
        obtain ⟨s', rfl, rfl⟩ := encode_eq_glyph hs hb hc
        obtain ⟨hv, t, rfl, hr⟩ := ih (fun d hd => hw d (List.mem_cons_of_mem c hd)) h
        exact ⟨hv, t, rfl, hr⟩
      · exact nomatch h

/-! ## Escapes -/

theorem hexValue_eq (b : UInt8) : hexValue b = hexDigit? (glyph b) := rfl

theorem hexDigit?_lt {c : Char} {n : Nat} (h : hexDigit? c = some n) : c.toNat < 0x80 := by
  have hle : ∀ d : Char, c ≤ d → c.toNat ≤ d.toNat := fun d h => h
  unfold hexDigit? at h
  split at h
  · next hc => exact Nat.lt_of_le_of_lt (hle _ hc.2) (by decide)
  split at h
  · next hc => exact Nat.lt_of_le_of_lt (hle _ hc.2) (by decide)
  split at h
  · next hc => exact Nat.lt_of_le_of_lt (hle _ hc.2) (by decide)
  · exact nomatch h

/-- Four digits in base sixteen are read as the number that they spell. -/
theorem SpellsUnit.hexQuad {s t : List Char} {n : Nat} (h : SpellsUnit s n t) :
    hexQuad (encode s) = .ok (n, encode t) := by
  cases h with
  | @digits a b c d w x y z ha hb hc hd t =>
    have hvalue : ∀ {e : Char} {k : Nat}, hexDigit? e = some k →
        hexValue (UInt8.ofNat e.toNat) = some k := by
      intro e k he
      rw [hexValue_eq, glyph_ofNat (hexDigit?_lt he), he]
    rw [encode_cons_ascii (hexDigit?_lt ha), encode_cons_ascii (hexDigit?_lt hb),
      encode_cons_ascii (hexDigit?_lt hc), encode_cons_ascii (hexDigit?_lt hd)]
    simp only [Json.hexQuad, hvalue ha, hvalue hb, hvalue hc, hvalue hd]

/-- Their bytes are four as well. -/
theorem SpellsUnit.bytes {s t : List Char} {n : Nat} (h : SpellsUnit s n t) :
    ∃ es, encode s = es ++ encode t ∧ es.length = 4 := by
  cases h with
  | @digits a b c d w x y z ha hb hc hd t =>
    refine ⟨encode [a, b, c, d], (encode_append [a, b, c, d] t), ?_⟩
    rw [encode_cons_ascii (hexDigit?_lt ha), encode_cons_ascii (hexDigit?_lt hb),
      encode_cons_ascii (hexDigit?_lt hc), encode_cons_ascii (hexDigit?_lt hd)]
    rfl

/-- Where four digits are read they stand, and spell what was read. -/
theorem spellsUnit_of_hexQuad {s : List Char} {n : Nat} {r : List UInt8}
    (h : hexQuad (encode s) = .ok (n, r)) : ∃ t, SpellsUnit s n t ∧ r = encode t := by
  -- a byte that is a digit is a character of its own
  have hdigit : ∀ {s : List Char} {b : UInt8} {r : List UInt8} {k : Nat}, encode s = b :: r →
      hexValue b = some k → ∃ t, s = glyph b :: t ∧ r = encode t := by
    intro s b r k hs hk
    refine encode_eq_cons hs ?_
    rw [← toNat_glyph]
    exact hexDigit?_lt hk
  unfold hexQuad at h
  split at h
  · next b₁ b₂ b₃ b₄ r' hs =>
    split at h
    · next w x y z hw hx hy hz =>
      rw [Except.ok.injEq, Prod.mk.injEq] at h
      obtain ⟨rfl, rfl⟩ := h
      obtain ⟨s₁, rfl, h₁⟩ := hdigit hs hw
      obtain ⟨s₂, rfl, h₂⟩ := hdigit h₁.symm hx
      obtain ⟨s₃, rfl, h₃⟩ := hdigit h₂.symm hy
      obtain ⟨t, rfl, h₄⟩ := hdigit h₃.symm hz
      exact ⟨t, .digits hw hx hy hz t, h₄⟩
    · exact nomatch h
  · exact nomatch h

/-- A character given by number is read, be it one unit or a pair of surrogates. -/
theorem SpellsChar.numbered {s t : List Char} {c : Char} (h : SpellsChar ('\\' :: 'u' :: s) c t) :
    ∃ es, numbered (encode s) = .ok (c, es.length) ∧ encode s = es ++ encode t := by
  cases h with
  | plain _ hslash => exact absurd rfl hslash
  | letter h => exact absurd h (by simp [letterEscapes])
  | @unit _ _ n h hn =>
    obtain ⟨es, hs, hlen⟩ := h.bytes
    -- one unit is a character unless it is one half of a pair
    have hmid : ¬ (0xDC00 ≤ n ∧ n ≤ 0xDFFF) := by omega
    have hlow : n < 0xD800 ∨ 0xDBFF < n := by omega
    refine ⟨es, ?_, hs⟩
    simp only [Json.numbered, h.hexQuad, bind, Except.bind, if_neg hmid, if_pos hlow, hlen]
  | @pair _ s' _ n m hhigh hlow hh hl =>
    obtain ⟨es, hs, hlen⟩ := hhigh.bytes
    obtain ⟨es', hs', hlen'⟩ := hlow.bytes
    have hmid : ¬ (0xDC00 ≤ n ∧ n ≤ 0xDFFF) := by omega
    have hsurrogate : ¬ (n < 0xD800 ∨ 0xDBFF < n) := by omega
    have hslash : ¬ glyph 92 ≠ '\\' := by decide
    have hmark : ¬ glyph 117 ≠ 'u' := by decide
    have hbytes : encode ('\\' :: 'u' :: s') = 92 :: 117 :: encode s' := by
      rw [encode_cons_ascii (by decide), encode_cons_ascii (by decide)]
      rfl
    refine ⟨es ++ 92 :: 117 :: es', ?_, ?_⟩
    · have hquad := hhigh.hexQuad
      rw [hbytes] at hquad
      simp only [Json.numbered, hquad, hlow.hexQuad, bind, Except.bind, if_neg hmid,
        if_neg hsurrogate, if_neg hslash, if_neg hmark, if_pos hl]
      simp [hlen, hlen']
    · rw [hs, hbytes, hs']
      simp

/-- Where a character is read by number it stands: one unit that is no surrogate, or two that make a
pair. -/
theorem spellsChar_of_numbered {s : List Char} {c : Char} {size : Nat}
    (h : numbered (encode s) = .ok (c, size)) : ∃ t, SpellsChar ('\\' :: 'u' :: s) c t := by
  rcases hquad : hexQuad (encode s) with f | ⟨n, r⟩
  · simp only [numbered, hquad, bind, Except.bind] at h
    cases h
  obtain ⟨t, hunit, rfl⟩ := spellsUnit_of_hexQuad hquad
  simp only [numbered, hquad, bind, Except.bind] at h
  split at h
  · cases h
  next hmid =>
  split at h
  · next hlow =>
    rw [Except.ok.injEq, Prod.mk.injEq] at h
    obtain ⟨rfl, -⟩ := h
    exact ⟨t, .unit hunit (by omega)⟩
  next hhigh =>
  -- a high surrogate, so another escape has to follow
  split at h
  · cases h
  next b r hr =>
  split at h
  · cases h
  next hb =>
  obtain ⟨t₁, rfl, rfl⟩ := encode_eq_glyph hr (not_not.mp hb) (by decide)
  split at h
  · cases h
  next b' r' hr' =>
  split at h
  · cases h
  next hb' =>
  obtain ⟨t₂, rfl, rfl⟩ := encode_eq_glyph hr' (not_not.mp hb') (by decide)
  rcases hquad' : hexQuad (encode t₂) with f | ⟨m, r''⟩
  · rw [hquad'] at h
    cases h
  obtain ⟨t₃, hunit', rfl⟩ := spellsUnit_of_hexQuad hquad'
  simp only [hquad'] at h
  split at h
  · next hm =>
    rw [Except.ok.injEq, Prod.mk.injEq] at h
    obtain ⟨rfl, -⟩ := h
    exact ⟨t₃, .pair hunit hunit' (by omega) hm⟩
  · cases h

/-- Each of the eight escapes with a letter is read as its character, and is one byte behind the
backslash. -/
theorem escape_letter {e c : Char} (h : (e, c) ∈ letterEscapes) (r : List UInt8) :
    e.toNat < 0x80 ∧ escape (UInt8.ofNat e.toNat :: r) = .ok (c, 1) := by
  simp only [letterEscapes, List.mem_cons, Prod.mk.injEq, List.not_mem_nil, or_false] at h
  rcases h with ⟨rfl, rfl⟩ | ⟨rfl, rfl⟩ | ⟨rfl, rfl⟩ | ⟨rfl, rfl⟩ | ⟨rfl, rfl⟩ | ⟨rfl, rfl⟩ |
    ⟨rfl, rfl⟩ | ⟨rfl, rfl⟩
  all_goals exact ⟨by decide, rfl⟩

/-- An escape is read as the character that it spells, and as many bytes as it has. -/
theorem SpellsChar.escape {s t : List Char} {c : Char} (h : SpellsChar ('\\' :: s) c t) :
    ∃ es, escape (encode s) = .ok (c, es.length) ∧ encode s = es ++ encode t := by
  -- the two escapes by number are one case
  have hnumber : ∀ {s' : List Char}, s = 'u' :: s' →
      ∃ es, Json.escape (encode s) = .ok (c, es.length) ∧ encode s = es ++ encode t := by
    rintro s' rfl
    obtain ⟨es, hread, hs⟩ := h.numbered
    rw [encode_cons_ascii (by decide), hs]
    refine ⟨117 :: es, ?_, rfl⟩
    show (Json.numbered (es ++ encode t)).map _ = _
    rw [← hs, hread]
    rfl
  cases h with
  | plain _ hslash => exact absurd rfl hslash
  | @letter e _ he t =>
    obtain ⟨hascii, hread⟩ := escape_letter he (encode t)
    rw [encode_cons_ascii hascii, hread]
    exact ⟨[UInt8.ofNat e.toNat], rfl, rfl⟩
  | unit => exact hnumber rfl
  | pair => exact hnumber rfl

/-- Where an escape is read it stands, and spells what was read. -/
theorem spellsChar_of_escape {s : List Char} {c : Char} {size : Nat}
    (h : escape (encode s) = .ok (c, size)) : ∃ t, SpellsChar ('\\' :: s) c t := by
  rcases hs : encode s with _ | ⟨b, r⟩
  · rw [hs] at h
    cases h
  rw [hs] at h
  -- all escapes but the numbered one are a letter and what it stands for
  have hletter : ∀ {e d : Char}, glyph b = e → e.toNat < 0x80 → (e, d) ∈ letterEscapes →
      (Except.ok (d, 1) : Except Fault (Char × Nat)) = .ok (c, size) →
      ∃ t, SpellsChar ('\\' :: s) c t := by
    intro e d hb he hmem hok
    obtain ⟨t, rfl, -⟩ := encode_eq_glyph hs hb he
    rw [Except.ok.injEq, Prod.mk.injEq] at hok
    obtain ⟨rfl, -⟩ := hok
    exact ⟨t, .letter hmem t⟩
  simp only [escape] at h
  split at h
  case h_9 hb =>
    obtain ⟨t, rfl, rfl⟩ := encode_eq_glyph hs hb (by decide)
    rcases hnum : numbered (encode t) with f | ⟨d, k⟩
    · rw [hnum] at h
      cases h
    · rw [hnum] at h
      rw [Except.map, Except.ok.injEq, Prod.mk.injEq] at h
      obtain ⟨rfl, -⟩ := h
      exact spellsChar_of_numbered hnum
  case h_10 => cases h
  all_goals
    next hb => exact hletter hb (by decide) (by decide) h

/-! ## Texts -/

/-- One character of a text is read, and its bytes are put in front of those that were found. -/
theorem SpellsChar.quotedBytes {s t : List Char} {c : Char} (h : SpellsChar s c t)
    (found : List UInt8) : quotedBytes found 0 (encode s) =
      quotedBytes ((String.utf8EncodeChar c).reverse ++ found) 0 (encode t) := by
  have hescape : ∀ {s' : List Char}, s = '\\' :: s' → Json.quotedBytes found 0 (encode s) =
      Json.quotedBytes ((String.utf8EncodeChar c).reverse ++ found) 0 (encode t) := by
    rintro s' rfl
    obtain ⟨es, hread, hs⟩ := h.escape
    rw [encode_cons_ascii (by decide), hs]
    rw [hs] at hread
    exact quotedBytes_escape hread
  cases h with
  | plain hquote hslash hcontrol t =>
    rw [encode_cons]
    exact quotedBytes_ink _ _ _ (isInk_utf8EncodeChar hquote hslash hcontrol)
  | letter => exact hescape rfl
  | unit => exact hescape rfl
  | pair => exact hescape rfl

/-- The characters of a text are read up to the closing quote. -/
theorem SpellsChars.quotedBytes {s cs t : List Char} (h : SpellsChars s cs t)
    (found : List UInt8) :
    quotedBytes found 0 (encode s) = .ok (found.reverse ++ encode cs, encode t) := by
  induction h generalizing found with
  | quote t =>
    rw [encode_cons_ascii (by decide)]
    show _ = Except.ok (found.reverse ++ [], encode t)
    rw [List.append_nil]
    rfl
  | char hc _ ih =>
    rw [hc.quotedBytes, ih, encode_cons, List.reverse_append, List.reverse_reverse,
      List.append_assoc]

/-- Where the characters of a text are read they stand. Induction on how long the rest is, since one
character may be up to twelve others; a byte alone is no character, so the wide ones are read whole.
-/
theorem spellsChars_of_quotedBytes {s : List Char} {found bs r : List UInt8}
    (h : quotedBytes found 0 (encode s) = .ok (bs, r)) :
    ∃ cs t, SpellsChars s cs t ∧ bs = found.reverse ++ encode cs ∧ r = encode t := by
  induction hn : s.length using Nat.strongRecOn generalizing s found with
  | ind n ih =>
    -- a character that is spelled is read, and the rest is shorter
    have hchar : ∀ {c : Char} {t : List Char}, SpellsChar s c t →
        ∃ cs t, SpellsChars s cs t ∧ bs = found.reverse ++ encode cs ∧ r = encode t := by
      intro c t hc
      rw [hc.quotedBytes] at h
      obtain ⟨cs, t', hcs, hbs, hr⟩ := ih t.length (hn ▸ hc.shorter) h rfl
      refine ⟨c :: cs, t', .char hc hcs, ?_, hr⟩
      rw [hbs, encode_cons, List.reverse_append, List.reverse_reverse, List.append_assoc]
    cases s with
    | nil => cases h
    | cons c s =>
      by_cases hquote : c = '"'
      · subst hquote
        rw [encode_cons_ascii (by decide)] at h
        have hread : quotedBytes found 0 (UInt8.ofNat '"'.toNat :: encode s) =
            .ok (found.reverse, encode s) := rfl
        rw [hread, Except.ok.injEq, Prod.mk.injEq] at h
        refine ⟨[], s, .quote s, ?_, h.2.symm⟩
        rw [← h.1]
        exact (List.append_nil _).symm
      by_cases hslash : c = '\\'
      · subst hslash
        rcases hescape : escape (encode s) with f | ⟨d, size⟩
        · rw [encode_cons_ascii (by decide), quotedBytes, if_neg (by decide),
            if_pos (by decide), hescape] at h
          cases h
        · obtain ⟨t, ht⟩ := spellsChar_of_escape hescape
          exact hchar ht
      by_cases hcontrol : 0x20 ≤ c.toNat
      · exact hchar (.plain hquote hslash hcontrol s)
      · -- a control character is refused
        have hascii : c.toNat < 0x80 := by omega
        have hlt : UInt8.ofNat c.toNat < 0x20 := by
          rw [UInt8.lt_iff_toNat_lt]
          simp
          omega
        rw [encode_cons_ascii hascii, Json.quotedBytes, if_neg (by rwa [glyph_ofNat hascii]),
          if_neg (by rwa [glyph_ofNat hascii]), if_pos hlt] at h
        cases h

/-- A text is read, after its opening quote, as the characters that are spelled there. -/
theorem SpellsChars.quotedText {s cs t : List Char} (h : SpellsChars s cs t) :
    quotedText (encode s) = .ok (String.ofList cs, encode t) := by
  unfold Json.quotedText
  rw [h.quotedBytes, List.reverse_nil, List.nil_append]
  simp only [decode_encode]

/-- Where a text is read it stands, up to its closing quote. -/
theorem spellsText_of_quotedText {s : List Char} {k : String} {r : List UInt8}
    (h : quotedText (encode s) = .ok (k, r)) :
    ∃ t, SpellsText ('"' :: s) k t ∧ r = encode t := by
  unfold quotedText at h
  rcases hread : quotedBytes [] 0 (encode s) with f | ⟨bs, r'⟩
  · rw [hread] at h
    exact nomatch h
  obtain ⟨cs, t, hcs, rfl, rfl⟩ := spellsChars_of_quotedBytes hread
  rw [hread, List.reverse_nil, List.nil_append] at h
  simp only [decode_encode, Except.ok.injEq, Prod.mk.injEq] at h
  obtain ⟨rfl, rfl⟩ := h
  exact ⟨t, .quoted hcs, rfl⟩

end Json
end KernelLink
