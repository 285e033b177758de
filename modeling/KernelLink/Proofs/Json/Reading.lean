import KernelLink.Proofs.Json.Numerals
/-!
# The reader against the grammar

The reader accepts exactly the documents of the grammar that are not nested deeper than its limit,
and gives what they spell. The one direction goes along a spelling: in front of any other characters
the reader gives what is spelled and leaves what stands behind it. The other goes along the reader,
by induction on the levels that it has left, and inside one level on the rounds of its loop.

Main definitions:
* `Json.Separated`: what stands between the items of a sequence or the members of an object.

Main results:
* `Json.Spells.reads`: a spelling is read, whatever stands behind it.
* `Json.spells_of_value`: where a value is read one is spelled.
* `Json.read_iff`: a whole text.
-/
namespace KernelLink
namespace Json

open Text.Utf8 (encode encode_append)

/-! ## Marks between values -/

/-- In front of the first item or member nothing stands, in front of another a comma. -/
inductive Separated : Bool → List Char → List Char → Prop where
  /-- The first. -/
  | first (s : List Char) : Separated true s s
  /-- Another. -/
  | comma {s t : List Char} (h : Blanks s (',' :: t)) : Separated false s t

/-- The characters begin with one that begins a value. -/
def StartsValue (s : List Char) : Prop := ∃ b r, encode s = b :: r ∧ startsValue b = true

theorem startsValue_cons {c : Char} (hc : c.toNat < 0x80)
    (h : startsValue (UInt8.ofNat c.toNat) = true) (s : List Char) : StartsValue (c :: s) :=
  ⟨_, _, encode_cons_ascii hc s, h⟩

theorem Blanks.skipSpace_starts {s t : List Char} (h : Blanks s t) (ht : StartsValue t) :
    Json.skipSpace (encode s) = encode t := by
  obtain ⟨b, r, hb, hstart⟩ := ht
  rw [h.skipSpace, hb, Json.skipSpace_cons (not_space_of_starts hstart).1]

/-- A value does not depend on the blanks in front of it. -/
theorem Blanks.value {s t : List Char} (h : Blanks s t) (fuel levels : Nat) :
    value fuel levels (encode s) = value fuel levels (encode t) := by
  unfold Json.value
  rw [h.skipSpace]

/-- The end of a sequence is found behind blanks, wherever an item could stand. -/
theorem nextItem_end {s t : List Char} (h : Blanks s (']' :: t)) (first : Bool) :
    nextItem first (encode s) = .ok (false, encode t) := by
  unfold nextItem
  rw [h.skipSpace_cons (by decide) (by unfold IsGap; decide)]
  rfl

/-- Another item is found behind what separates it, a comma or nothing in front of the first. -/
theorem nextItem_separated {first : Bool} {s s' t : List Char} (h : Separated first s s')
    (hs : Blanks s' t) (ht : StartsValue t) :
    nextItem first (encode s) = .ok (true, encode t) := by
  have hspace := hs.skipSpace_starts ht
  obtain ⟨b, r, hb, hstart⟩ := ht
  have hend : glyph b ≠ ']' := (not_space_of_starts hstart).2
  rw [hb] at hspace ⊢
  cases h with
  | first =>
    unfold nextItem
    rw [hspace]
    simp only [if_neg hend, if_true]
  | comma h =>
    unfold nextItem
    rw [h.skipSpace_cons (by decide) (by unfold IsGap; decide)]
    have hbracket : glyph (UInt8.ofNat ','.toNat) ≠ ']' := by decide
    have hcomma : glyph (UInt8.ofNat ','.toNat) = ',' := by decide
    simp only [if_neg hbracket, Bool.false_eq_true, if_false, if_pos hcomma, hspace, if_neg hend]

/-- What is found of the next item: the end of the sequence stands there, or its mark and something
that is not the end. -/
theorem nextItem_cases {first another : Bool} {s : List Char} {r : List UInt8}
    (h : nextItem first (encode s) = .ok (another, r)) :
    (another = false ∧ ∃ t, Blanks s (']' :: t) ∧ r = encode t) ∨
      another = true ∧ ∃ s' t, Separated first s s' ∧ Blanks s' t ∧ r = encode t := by
  unfold nextItem at h
  split at h
  · cases h
  next b r' hskip =>
  split at h
  · next hb =>
    obtain ⟨t, ht, hr⟩ := blanks_of_skipSpace_cons hskip hb (by decide)
    rw [Except.ok.injEq, Prod.mk.injEq] at h
    exact Or.inl ⟨h.1.symm, t, ht, h.2.symm.trans hr⟩
  split at h
  · next hfirst =>
    subst hfirst
    obtain ⟨t, ht, hs⟩ := blanks_of_skipSpace s
    rw [Except.ok.injEq, Prod.mk.injEq] at h
    exact Or.inr ⟨h.1.symm, s, t, .first s, ht, h.2.symm.trans (hskip.symm.trans hs)⟩
  next hfirst =>
  rw [Bool.not_eq_true] at hfirst
  subst hfirst
  split at h
  · next hb =>
    -- behind the comma the sequence must not end
    obtain ⟨s', hs', rfl⟩ := blanks_of_skipSpace_cons hskip hb (by decide)
    obtain ⟨t, ht, hs⟩ := blanks_of_skipSpace s'
    split at h
    · cases h
    next b' r'' hskip' =>
    split at h
    · cases h
    · rw [Except.ok.injEq, Prod.mk.injEq] at h
      exact Or.inr ⟨h.1.symm, s', t, .comma hs', ht, h.2.symm.trans (hskip'.symm.trans hs)⟩
  · cases h

/-- The end of an object is found behind blanks, wherever a key could stand. -/
theorem nextKey_end {s t : List Char} (h : Blanks s ('}' :: t)) (first : Bool) :
    nextKey first (encode s) = .ok (none, encode t) := by
  unfold nextKey
  rw [h.skipSpace_cons (by decide) (by unfold IsGap; decide)]
  rfl

/-- Another key is found behind what separates it from the member before. -/
theorem nextKey_separated {first : Bool} {s s' t u : List Char} {k : String}
    (h : Separated first s s') (hs : Blanks s' t) (hk : SpellsText t k u) :
    nextKey first (encode s) = .ok (some k, encode u) := by
  cases hk with
  | quoted hcs =>
    have hspace := hs.skipSpace_cons (by decide) (by unfold IsGap; decide)
    cases h with
    | first =>
      unfold nextKey
      rw [hspace]
      have hread := hcs.quotedText
      show (quotedText _).map _ = _
      rw [hread]
      rfl
    | comma h =>
      unfold nextKey
      rw [h.skipSpace_cons (by decide) (by unfold IsGap; decide)]
      dsimp only
      rw [hspace]
      show (quotedText _).map _ = _
      rw [hcs.quotedText]
      rfl

/-- Where a key is read behind its opening quote it is spelled. -/
theorem spellsText_of_key {t : List Char} {key : Option String} {r : List UInt8}
    (h : (quotedText (encode t)).map (fun (k, r) => (some k, r)) = .ok (key, r)) :
    ∃ k u, key = some k ∧ SpellsText ('"' :: t) k u ∧ r = encode u := by
  rcases hread : quotedText (encode t) with f | ⟨k, r'⟩
  · rw [hread] at h
    cases h
  · rw [hread, Except.map, Except.ok.injEq, Prod.mk.injEq] at h
    obtain ⟨rfl, rfl⟩ := h
    obtain ⟨u, hu, hr⟩ := spellsText_of_quotedText hread
    exact ⟨k, u, rfl, hu, hr⟩

/-- What is found of the next key: the end of the object stands there, or its mark and the key. -/
theorem nextKey_cases {first : Bool} {s : List Char} {key : Option String} {r : List UInt8}
    (h : nextKey first (encode s) = .ok (key, r)) :
    (key = none ∧ ∃ t, Blanks s ('}' :: t) ∧ r = encode t) ∨
      ∃ k s' t u, key = some k ∧ Separated first s s' ∧ Blanks s' t ∧ SpellsText t k u ∧
        r = encode u := by
  unfold nextKey at h
  split at h
  · cases h
  next b r' hskip =>
  split at h
  · next hb =>
    obtain ⟨t, ht, hr⟩ := blanks_of_skipSpace_cons hskip hb (by decide)
    rw [Except.ok.injEq, Prod.mk.injEq] at h
    exact Or.inl ⟨h.1.symm, t, ht, h.2.symm.trans hr⟩
  split at h
  · next hfirst =>
    subst hfirst
    split at h
    · next hb =>
      obtain ⟨t, ht, rfl⟩ := blanks_of_skipSpace_cons hskip hb (by decide)
      obtain ⟨k, u, hk, hu, hr⟩ := spellsText_of_key h
      exact Or.inr ⟨k, s, _, u, hk, .first s, ht, hu, hr⟩
    · cases h
  next hfirst =>
  rw [Bool.not_eq_true] at hfirst
  subst hfirst
  split at h
  · next hb =>
    -- behind the comma there has to be a key
    obtain ⟨s', hs', rfl⟩ := blanks_of_skipSpace_cons hskip hb (by decide)
    split at h
    · cases h
    next b' r'' hskip' =>
    split at h
    · next hb' =>
      obtain ⟨t, ht, rfl⟩ := blanks_of_skipSpace_cons hskip' hb' (by decide)
      obtain ⟨k, u, hk, hu, hr⟩ := spellsText_of_key h
      exact Or.inr ⟨k, s', _, u, hk, .comma hs', ht, hu, hr⟩
    · cases h
    · cases h
  · cases h

/-- The colon of a member is found behind blanks, as it is none itself. -/
theorem Blanks.colon {s t : List Char} (h : Blanks s (':' :: t)) :
    colon (encode s) = .ok (encode t) := by
  unfold Json.colon
  rw [h.skipSpace_cons (by decide) (by unfold IsGap; decide)]
  rfl

/-- Where a colon is found one stands, with blanks in front of it. -/
theorem blanks_of_colon {s : List Char} {r : List UInt8} (h : colon (encode s) = .ok r) :
    ∃ t, Blanks s (':' :: t) ∧ r = encode t := by
  unfold colon at h
  split at h
  · cases h
  next b r' hskip =>
  split at h
  · next hb =>
    obtain ⟨t, ht, hr⟩ := blanks_of_skipSpace_cons hskip hb (by decide)
    exact ⟨t, ht, (Except.ok.inj h).symm.trans hr⟩
  · cases h

/-! ## A spelling is read -/

/-- A spelling begins with a character that begins a value, so the reader knows from one byte what
is coming. -/
theorem Spells.starts {s t : List Char} {v : Json} (h : Spells s v t) : StartsValue s := by
  cases h with
  | null => exact startsValue_cons (by decide) (by decide) _
  | true => exact startsValue_cons (by decide) (by decide) _
  | false => exact startsValue_cons (by decide) (by decide) _
  | str h =>
    cases h with
    | quoted => exact startsValue_cons (by decide) (by decide) _
  | noItems => exact startsValue_cons (by decide) (by decide) _
  | arr => exact startsValue_cons (by decide) (by decide) _
  | noMembers => exact startsValue_cons (by decide) (by decide) _
  | obj => exact startsValue_cons (by decide) (by decide) _
  | @num n _ hn _ t =>
    unfold Numeral.chars
    cases n.negative with
    | true => exact startsValue_cons (by decide) (by decide) _
    | false =>
      obtain ⟨b, r, hbr, hb, -⟩ := encode_digits_cons hn.whole hn.nonempty
      refine ⟨b, r ++ encode (n.tail ++ t), ?_, startsValue_of_isDigit hb⟩
      rw [if_neg Bool.false_ne_true, List.nil_append, List.append_assoc, encode_append, hbr]
      rfl

/-- Where another item stands behind its mark the reader goes on with it. -/
theorem SpellsSpaced.announced {s t : List Char} {v : Json} (h : SpellsSpaced s v t) {first : Bool}
    {s₀ : List Char} (hsep : Separated first s₀ s) :
    ∃ s₁, nextItem first (encode s₀) = .ok (true, encode s₁) ∧
      ∀ fuel levels, value fuel levels (encode s₁) = value fuel levels (encode s) := by
  cases h with
  | mk hfront h hback =>
    exact ⟨_, nextItem_separated hsep hfront h.starts,
      fun fuel levels => (hfront.value fuel levels).symm⟩

/-- Whether a number ends in front of characters is seen from the first of them. -/
theorem ends_encode_cons {c : Char} (hc : c.toNat < 0x80)
    (hend : c.isDigit = false ∧ c ≠ '.' ∧ c ≠ 'e' ∧ c ≠ 'E') (s : List Char) :
    Ends (encode (c :: s)) := by
  rw [encode_cons_ascii hc]
  refine ends_cons ?_
  unfold isDigit
  rwa [glyph_ofNat hc]

/-- A blank ends a number, and so does what ends a value. -/
theorem Blanks.ends {s t : List Char} (h : Blanks s t) (ht : Ends (encode t)) :
    Ends (encode s) := by
  cases h with
  | none => exact ht
  | one hgap _ =>
    refine ends_encode_cons hgap.lt ?_ _
    rcases hgap with rfl | rfl | rfl | rfl <;> decide

/-- A number is read as its value, provided that what stands behind it cannot go on the number. -/
theorem Numeral.WellFormed.value {n : Numeral} (hn : n.WellFormed) {v : Number}
    (hv : n.value? = some v) {t : List Char} (ht : Ends (encode t)) (fuel levels : Nat) :
    value fuel levels (encode (n.chars ++ t)) = .ok (.num v, encode t) := by
  have hgives := hn.gives (n.stops_of_ends ht)
  have hread : number n.negative (encode (n.whole ++ (n.tail ++ t))) = .ok (v, encode t) := by
    rcases hnumber : number n.negative (encode (n.whole ++ (n.tail ++ t))) with f | ⟨w, r⟩
    · rw [hnumber] at hgives
      exact absurd (hv.symm.trans hgives) (Option.some_ne_none v)
    · rw [hnumber] at hgives
      obtain ⟨hw, rfl⟩ := hgives
      obtain rfl := Option.some.inj (hv.symm.trans hw)
      rfl
  unfold Numeral.chars
  cases hneg : n.negative with
  | true =>
    rw [hneg] at hread
    rw [if_pos rfl, List.append_assoc, List.append_assoc, List.singleton_append,
      encode_cons_ascii (by decide)]
    show Json.value fuel levels (45 :: _) = _
    rw [value_sign, hread]
    rfl
  | false =>
    rw [hneg] at hread
    rw [if_neg Bool.false_ne_true, List.nil_append, List.append_assoc]
    obtain ⟨b, r, hbr, hb, -⟩ := encode_digits_cons hn.whole hn.nonempty
    rw [encode_append, hbr, List.cons_append] at hread ⊢
    rw [value_digit fuel levels hb, hread]
    rfl

/-- Behind an opening bracket the items of a list are read, on the level below. -/
theorem value_bracket (fuel levels : Nat) (s : List Char) :
    value fuel (levels + 1) (encode ('[' :: s)) =
      (items (value fuel levels) fuel [] (encode s)).map fun (vs, r) => (.arr vs, r) := by
  rw [encode_cons_ascii (by decide)]
  exact value_list fuel levels _

/-- Behind an opening brace the members of an object are read, on the level below. -/
theorem value_brace (fuel levels : Nat) (s : List Char) :
    value fuel (levels + 1) (encode ('{' :: s)) =
      (members (addMember (value fuel levels)) fuel true [] (encode s)).map fun (ms, r) =>
        (.obj ms.reverse, r) := by
  rw [encode_cons_ascii (by decide)]
  exact value_object fuel levels _

section
variable {fuel : Nat}

mutual
/-- A spelling is read, whatever stands behind it; a number has to end there. -/
theorem Spells.reads : ∀ {s t : List Char} {v : Json}, Spells s v t → ∀ (levels : Nat),
    v.depth ≤ levels → s.length ≤ fuel → ((∃ n, v = .num n) → Ends (encode t)) →
    value fuel levels (encode s) = .ok (v, encode t)
  | _, _, _, .null t, levels, _, _, _ => by
    have hread := word_encode .null (w := ['u', 'l', 'l']) (by simp) t
    rw [encode_cons_ascii (by decide)]
    unfold value
    exact hread
  | _, _, _, .true t, levels, _, _, _ => by
    have hread := word_encode (.bool true) (w := ['r', 'u', 'e']) (by simp) t
    rw [encode_cons_ascii (by decide)]
    unfold value
    exact hread
  | _, _, _, .false t, levels, _, _, _ => by
    have hread := word_encode (.bool false) (w := ['a', 'l', 's', 'e']) (by simp) t
    rw [encode_cons_ascii (by decide)]
    unfold value
    exact hread
  | _, _, _, .num hn hv t, levels, _, _, hends => hn.value hv (hends ⟨_, rfl⟩) fuel levels
  | _, _, _, .str h, levels, _, _, _ => by
    cases h with
    | quoted h =>
      rw [encode_cons_ascii (by decide)]
      unfold value
      show (quotedText _).map _ = _
      rw [h.quotedText]
      rfl
  | _, _, _, .noItems h, levels, hdepth, hfuel, _ => by
    obtain ⟨levels, rfl⟩ : ∃ n, levels = n + 1 := ⟨levels - 1, by rw [depth] at hdepth; omega⟩
    obtain ⟨n, rfl⟩ : ∃ n, fuel = n + 1 := ⟨fuel - 1, by rw [List.length_cons] at hfuel; omega⟩
    rw [value_bracket, items, nextItem_end h]
    rfl
  | _, _, _, .arr h, levels, hdepth, hfuel, _ => by
    obtain ⟨levels, rfl⟩ : ∃ n, levels = n + 1 := ⟨levels - 1, by rw [depth] at hdepth; omega⟩
    have hlength := h.shorter
    rw [depth, Nat.add_le_add_iff_right] at hdepth
    rw [List.length_cons] at hfuel hlength
    -- an item has at least one character, so the fuel lasts for all
    rw [value_bracket, h.reads _ levels fuel [] _ rfl (.first _) hdepth (by omega) (by omega)]
    rfl
  | _, _, _, .noMembers h, levels, hdepth, hfuel, _ => by
    obtain ⟨levels, rfl⟩ : ∃ n, levels = n + 1 := ⟨levels - 1, by rw [depth] at hdepth; omega⟩
    obtain ⟨n, rfl⟩ : ∃ n, fuel = n + 1 := ⟨fuel - 1, by rw [List.length_cons] at hfuel; omega⟩
    rw [value_brace, members, nextKey_end h]
    rfl
  | _, _, _, .obj h, levels, hdepth, hfuel, _ => by
    obtain ⟨levels, rfl⟩ : ∃ n, levels = n + 1 := ⟨levels - 1, by rw [depth] at hdepth; omega⟩
    have hlength := h.shorter
    rw [depth, Nat.add_le_add_iff_right] at hdepth
    rw [List.length_cons] at hfuel hlength
    rw [value_brace, h.reads _ levels fuel true [] _ rfl (.first _) hdepth (by omega) (by omega),
      List.append_nil]
    simp only [Except.map, List.reverse_reverse]

/-- A value with blanks around it is read up to the blanks behind it. -/
theorem SpellsSpaced.reads : ∀ {s t : List Char} {v : Json}, SpellsSpaced s v t →
    ∀ (levels : Nat), v.depth ≤ levels → s.length ≤ fuel → Ends (encode t) →
    ∃ u, Blanks u t ∧ value fuel levels (encode s) = .ok (v, encode u)
  | _, _, _, .mk hfront h hback, levels, hdepth, hfuel, hends => by
    have hread := h.reads levels hdepth (Nat.le_trans hfront.le hfuel) fun _ => hback.ends hends
    rw [← hfront.value] at hread
    exact ⟨_, hback, hread⟩

/-- The items of a sequence are read, those of `found` before them. -/
theorem SpellsItems.reads : ∀ {s e : List Char} {vs : List Json}, SpellsItems s vs e →
    ∀ (t : List Char) (levels n : Nat) (found : List Json) (s₀ : List Char), e = ']' :: t →
    Separated found.isEmpty s₀ s → depthItems vs ≤ levels → s.length ≤ fuel → vs.length < n →
    items (value fuel levels) n found (encode s₀) = .ok (found.reverse ++ vs, encode t)
  | _, _, _, .last h, t, levels, n, found, s₀, he, hsep, hdepth, hfuel, hn => by
    obtain ⟨n, rfl⟩ : ∃ m, n = m + 1 + 1 := ⟨n - 2, by rw [List.length_singleton] at hn; omega⟩
    obtain ⟨s₁, hnext, hsame⟩ := h.announced hsep
    obtain ⟨u, hback, hread⟩ := h.reads levels (depthItems_cons_le.mp hdepth).1 hfuel
      (he ▸ ends_encode_cons (by decide) (by decide) t)
    rw [he] at hback
    rw [items, hnext]
    simp only [hsame, hread]
    -- and then the closing bracket
    rw [items, nextItem_end hback]
    simp
  | _, _, _, .cons (v := v) h hs, t, levels, n, found, s₀, he, hsep, hdepth, hfuel, hn => by
    obtain ⟨n, rfl⟩ : ∃ m, n = m + 1 := ⟨n - 1, by rw [List.length_cons] at hn; omega⟩
    have hlength := h.shorter
    rw [List.length_cons] at hlength hn
    obtain ⟨s₁, hnext, hsame⟩ := h.announced hsep
    obtain ⟨u, hback, hread⟩ := h.reads levels (depthItems_cons_le.mp hdepth).1 hfuel
      (ends_encode_cons (by decide) (by decide) _)
    have htail := hs.reads t levels n (v :: found) u he (.comma hback)
      (depthItems_cons_le.mp hdepth).2 (by omega) (by omega)
    rw [items, hnext]
    simp only [hsame, hread]
    rw [htail, List.reverse_cons, List.append_assoc]
    rfl

/-- A member is read up to the blanks behind it: its key, and then its value. -/
theorem SpellsMember.reads : ∀ {s t : List Char} {k : String} {v : Json}, SpellsMember s k v t →
    ∀ (levels : Nat) (first : Bool) (found : List (String × Json)) (s₀ : List Char),
    Separated first s₀ s → v.depth ≤ levels → s.length ≤ fuel → Ends (encode t) →
    ∃ s₁ u, Blanks u t ∧ nextKey first (encode s₀) = .ok (some k, encode s₁) ∧
      addMember (value fuel levels) found k (encode s₁) = .ok ((k, v) :: found, encode u)
  | _, _, _, _, .mk hkey hk hcolon hv, levels, first, found, s₀, hsep, hdepth, hfuel, hends => by
    have hfront := hkey.le
    have hlength := hk.shorter
    have hback := hcolon.le
    rw [List.length_cons] at hback
    obtain ⟨u, hu, hread⟩ := hv.reads levels hdepth (by omega) hends
    refine ⟨_, u, hu, nextKey_separated hsep hkey hk, ?_⟩
    simp only [addMember, hcolon.colon, hread, bind, Except.bind, pure, Except.pure]

/-- The members of an object are read, those of `found` before them in reverse. -/
theorem SpellsMembers.reads : ∀ {s e : List Char} {ms : List (String × Json)},
    SpellsMembers s ms e → ∀ (t : List Char) (levels n : Nat) (first : Bool)
    (found : List (String × Json)) (s₀ : List Char), e = '}' :: t → Separated first s₀ s →
    depthMembers ms ≤ levels → s.length ≤ fuel → ms.length < n →
    members (addMember (value fuel levels)) n first found (encode s₀) =
      .ok (ms.reverse ++ found, encode t)
  | _, _, _, .last h, t, levels, n, first, found, s₀, he, hsep, hdepth, hfuel, hn => by
    obtain ⟨n, rfl⟩ : ∃ m, n = m + 1 + 1 := ⟨n - 2, by rw [List.length_singleton] at hn; omega⟩
    obtain ⟨s₁, u, hback, hnext, hadd⟩ := h.reads levels first found s₀ hsep
      (depthMembers_cons_le.mp hdepth).1 hfuel (he ▸ ends_encode_cons (by decide) (by decide) t)
    rw [he] at hback
    rw [members, hnext]
    simp only [hadd]
    rw [members, nextKey_end hback]
    rfl
  | _, _, _, .cons (k := k) (v := v) h hs, t, levels, n, first, found, s₀, he, hsep, hdepth, hfuel,
    hn => by
    obtain ⟨n, rfl⟩ : ∃ m, n = m + 1 := ⟨n - 1, by rw [List.length_cons] at hn; omega⟩
    -- each member is shorter than what it stands in, so the fuel lasts for the rest
    have hlength := h.shorter
    rw [List.length_cons] at hlength hn
    obtain ⟨s₁, u, hback, hnext, hadd⟩ := h.reads levels first found s₀ hsep
      (depthMembers_cons_le.mp hdepth).1 hfuel (ends_encode_cons (by decide) (by decide) _)
    have htail := hs.reads t levels n false ((k, v) :: found) u he (.comma hback)
      (depthMembers_cons_le.mp hdepth).2 (by omega) (by omega)
    rw [members, hnext]
    simp only [hadd]
    rw [htail, List.reverse_cons, List.append_assoc]
    rfl
end

end

/-! ## What is read is spelled -/

/-- Where the reader finds a value one is spelled behind blanks, and it has levels left for it. -/
def Finds (levels : Nat) (item : List UInt8 → Reading Json) : Prop :=
  ∀ (s : List Char) (v : Json) (r : List UInt8), item (encode s) = .ok (v, r) →
    ∃ s₁ t, Blanks s s₁ ∧ Spells s₁ v t ∧ r = encode t ∧ v.depth ≤ levels

/-- Where the items of a sequence are read they are spelled: none at the end, or some behind the
mark that separates them from those found before. -/
theorem spells_of_items {levels : Nat} {item : List UInt8 → Reading Json}
    (hitem : Finds levels item) {n : Nat} {found : List Json} {s : List Char} {vs : List Json}
    {r : List UInt8} (h : items item n found (encode s) = .ok (vs, r)) :
    ∃ us t, vs = found.reverse ++ us ∧ r = encode t ∧ depthItems us ≤ levels ∧
      (us = [] ∧ Blanks s (']' :: t) ∨
        ∃ s', Separated found.isEmpty s s' ∧ SpellsItems s' us (']' :: t)) := by
  induction n generalizing found s with
  | zero => cases h
  | succ n ih =>
    rw [items] at h
    rcases hnext : nextItem found.isEmpty (encode s) with f | ⟨another, r'⟩
    · rw [hnext] at h
      cases h
    rw [hnext] at h
    rcases nextItem_cases hnext with ⟨rfl, t, ht, rfl⟩ | ⟨rfl, s', s₁, hsep, hfront, rfl⟩
    · dsimp only at h
      rw [Except.ok.injEq, Prod.mk.injEq] at h
      obtain ⟨rfl, rfl⟩ := h
      exact ⟨[], t, (List.append_nil _).symm, rfl, Nat.zero_le _, Or.inl ⟨rfl, ht⟩⟩
    dsimp only at h
    split at h
    · cases h
    next v r' hread =>
    obtain ⟨s₂, s₃, hfront', hv, rfl, hdepth⟩ := hitem s₁ v r' hread
    obtain ⟨us, t, rfl, rfl, hdepths, hrest⟩ := ih h
    refine ⟨v :: us, t, by simp, rfl, depthItems_cons_le.mpr ⟨hdepth, hdepths⟩,
      Or.inr ⟨s', hsep, ?_⟩⟩
    -- the blanks behind the value end at the bracket, or at the comma of the next item
    rcases hrest with ⟨rfl, hend⟩ | ⟨s'', hcomma, hus⟩
    · exact .last (.mk (hfront.trans hfront') hv hend)
    · cases hcomma with
      | comma hback => exact .cons (.mk (hfront.trans hfront') hv hback) hus

/-- Where a member is read behind its key, a colon and a value are spelled. -/
theorem spells_of_addMember {levels : Nat} {item : List UInt8 → Reading Json}
    (hitem : Finds levels item) {found found' : List (String × Json)} {k : String} {s : List Char}
    {r : List UInt8} (h : addMember item found k (encode s) = .ok (found', r)) :
    ∃ s₁ v t, Blanks s (':' :: s₁) ∧ found' = (k, v) :: found ∧ r = encode t ∧ v.depth ≤ levels ∧
      ∀ {e}, Blanks t e → SpellsSpaced s₁ v e := by
  unfold addMember at h
  rcases hcolon : colon (encode s) with f | r₁
  · rw [hcolon] at h
    cases h
  obtain ⟨s₁, hs₁, rfl⟩ := blanks_of_colon hcolon
  rcases hread : item (encode s₁) with f | ⟨v, r₂⟩
  · simp only [hcolon, hread, bind, Except.bind] at h
    cases h
  obtain ⟨s₂, t, hfront, hv, rfl, hdepth⟩ := hitem s₁ v r₂ hread
  simp only [hcolon, hread, bind, Except.bind, pure, Except.pure, Except.ok.injEq,
    Prod.mk.injEq] at h
  exact ⟨s₁, v, t, hs₁, h.1.symm, h.2.symm, hdepth, fun hback => .mk hfront hv hback⟩

/-- The same as for items for the members of an object, where a key and a colon are found in front
of each value. -/
theorem spells_of_members {levels : Nat} {item : List UInt8 → Reading Json}
    (hitem : Finds levels item) {n : Nat} {first : Bool} {found : List (String × Json)}
    {s : List Char} {ms : List (String × Json)} {r : List UInt8}
    (h : members (addMember item) n first found (encode s) = .ok (ms, r)) :
    ∃ us t, ms = us.reverse ++ found ∧ r = encode t ∧ depthMembers us ≤ levels ∧
      (us = [] ∧ Blanks s ('}' :: t) ∨
        ∃ s', Separated first s s' ∧ SpellsMembers s' us ('}' :: t)) := by
  induction n generalizing first found s with
  | zero => cases h
  | succ n ih =>
    rw [members] at h
    rcases hnext : nextKey first (encode s) with f | ⟨key, r'⟩
    · rw [hnext] at h
      cases h
    rw [hnext] at h
    rcases nextKey_cases hnext with
      ⟨rfl, t, ht, rfl⟩ | ⟨k, s', s₁, s₂, rfl, hsep, hfront, hk, rfl⟩
    · dsimp only at h
      rw [Except.ok.injEq, Prod.mk.injEq] at h
      obtain ⟨rfl, rfl⟩ := h
      exact ⟨[], t, rfl, rfl, Nat.zero_le _, Or.inl ⟨rfl, ht⟩⟩
    dsimp only at h
    split at h
    · cases h
    next found' r'' hadd =>
    obtain ⟨s₃, v, s₄, hcolon, rfl, rfl, hdepth, hv⟩ := spells_of_addMember hitem hadd
    -- the members behind this one, which are found first to last but kept last to first
    obtain ⟨us, t, rfl, rfl, hdepths, hrest⟩ := ih h
    refine ⟨(k, v) :: us, t, by simp, rfl, depthMembers_cons_le.mpr ⟨hdepth, hdepths⟩,
      Or.inr ⟨s', hsep, ?_⟩⟩
    rcases hrest with ⟨rfl, hend⟩ | ⟨s'', hcomma, hus⟩
    · exact .last (.mk hfront hk hcolon (hv hend))
    · cases hcomma with
      | comma hback => exact .cons (.mk hfront hk hcolon (hv hback)) hus

/-- A word behind its first letter, which the reader has looked at to know what kind of value it is.
-/
theorem of_word_behind {meaning v : Json} {c : Char} {w s : List Char} {b : UInt8}
    {r r' : List UInt8} (hw : ∀ c ∈ w, c.toNat < 0x80) (hs : encode s = b :: r')
    (hb : glyph b = c) (hc : c.toNat < 0x80) (h : word meaning w r' = .ok (v, r)) :
    ∃ t, s = c :: (w ++ t) ∧ v = meaning ∧ r = encode t := by
  obtain ⟨s', rfl, rfl⟩ := encode_eq_glyph hs hb hc
  obtain ⟨hv, t, rfl, hr⟩ := of_word hw h
  exact ⟨t, rfl, hv, hr⟩

/-- A number behind its sign, which the reader has taken already; with the sign in front it is a
spelling again. -/
theorem spells_of_number {negative : Bool} {s : List Char} {v : Json} {r : List UInt8}
    (h : (number negative (encode s)).map (fun (n, r) => (Json.num n, r)) = .ok (v, r)) :
    ∃ t, Spells ((if negative then ['-'] else []) ++ s) v t ∧ r = encode t ∧ v.depth = 0 := by
  rcases hread : number negative (encode s) with f | ⟨n, r'⟩
  · rw [hread] at h
    cases h
  rw [hread, Except.map, Except.ok.injEq, Prod.mk.injEq] at h
  obtain ⟨rfl, rfl⟩ := h
  obtain ⟨m, t, rfl, hm, rfl, hvalue, rfl⟩ := numeral_of_number hread
  have hspelled := Spells.num hm hvalue t
  unfold Numeral.chars at hspelled
  rw [List.append_assoc, List.append_assoc] at hspelled
  exact ⟨t, hspelled, rfl, rfl⟩

/-- A text behind its opening quote, in the same way. -/
theorem spells_of_text {s : List Char} {v : Json} {r : List UInt8}
    (h : (quotedText (encode s)).map (fun (k, r) => (Json.str k, r)) = .ok (v, r)) :
    ∃ t, Spells ('"' :: s) v t ∧ r = encode t ∧ v.depth = 0 := by
  rcases hread : quotedText (encode s) with f | ⟨k, r'⟩
  · rw [hread] at h
    cases h
  obtain ⟨t, ht, rfl⟩ := spellsText_of_quotedText hread
  rw [hread, Except.map, Except.ok.injEq, Prod.mk.injEq] at h
  obtain ⟨rfl, rfl⟩ := h
  exact ⟨t, .str ht, rfl, rfl⟩

/-- A sequence behind its opening bracket, where each item that is found is spelled. -/
theorem spells_of_sequence {levels n : Nat} {item : List UInt8 → Reading Json}
    (hitem : Finds levels item) {s : List Char} {v : Json} {r : List UInt8}
    (h : (items item n [] (encode s)).map (fun (vs, r) => (Json.arr vs, r)) = .ok (v, r)) :
    ∃ t, Spells ('[' :: s) v t ∧ r = encode t ∧ v.depth ≤ levels + 1 := by
  rcases hread : items item n [] (encode s) with f | ⟨vs, r'⟩
  · rw [hread] at h
    cases h
  rw [hread, Except.map, Except.ok.injEq, Prod.mk.injEq] at h
  obtain ⟨rfl, rfl⟩ := h
  obtain ⟨us, t, rfl, rfl, hdepth, hrest⟩ := spells_of_items hitem hread
  refine ⟨t, ?_, rfl, by rw [depth]; exact Nat.add_le_add_right hdepth 1⟩
  rcases hrest with ⟨rfl, hend⟩ | ⟨s', hsep, hus⟩
  · exact .noItems hend
  · cases hsep with
    | first => exact .arr hus

/-- An object behind its opening brace, where each value that is found is spelled. -/
theorem spells_of_object {levels n : Nat} {item : List UInt8 → Reading Json}
    (hitem : Finds levels item) {s : List Char} {v : Json} {r : List UInt8}
    (h : (members (addMember item) n true [] (encode s)).map
      (fun (ms, r) => (Json.obj ms.reverse, r)) = .ok (v, r)) :
    ∃ t, Spells ('{' :: s) v t ∧ r = encode t ∧ v.depth ≤ levels + 1 := by
  rcases hread : members (addMember item) n true [] (encode s) with f | ⟨ms, r'⟩
  · rw [hread] at h
    cases h
  rw [hread, Except.map, Except.ok.injEq, Prod.mk.injEq] at h
  obtain ⟨rfl, rfl⟩ := h
  obtain ⟨us, t, rfl, rfl, hdepth, hrest⟩ := spells_of_members hitem hread
  rw [List.append_nil, List.reverse_reverse]
  refine ⟨t, ?_, rfl, by rw [depth]; exact Nat.add_le_add_right hdepth 1⟩
  rcases hrest with ⟨rfl, hend⟩ | ⟨s', hsep, hus⟩
  · exact .noMembers hend
  · cases hsep with
    | first => exact .obj hus

/-- Where a value is read one is spelled. Induction on the levels that the reader has left; what it
looks at first decides which rule of the grammar it is. -/
theorem spells_of_value (fuel levels : Nat) : Finds levels (value fuel levels) := by
  induction levels using Nat.strongRecOn with
  | ind levels ih =>
    intro s v r h
    obtain ⟨s₁, hfront, hskip⟩ := blanks_of_skipSpace s
    -- it is enough to find the spelling behind the blanks
    suffices hfound : ∃ t, Spells s₁ v t ∧ r = encode t ∧ v.depth ≤ levels by
      obtain ⟨t, ht⟩ := hfound
      exact ⟨s₁, t, hfront, ht⟩
    unfold value at h
    rw [hskip] at h
    split at h
    · cases h
    next b r' hs =>
    -- the first character decides what it is
    split at h
    · next hb =>
      obtain ⟨t, rfl, rfl, rfl⟩ := of_word_behind (by simp) hs hb (by decide) h
      exact ⟨t, .null t, rfl, Nat.zero_le _⟩
    · next hb =>
      obtain ⟨t, rfl, rfl, rfl⟩ := of_word_behind (by simp) hs hb (by decide) h
      exact ⟨t, .true t, rfl, Nat.zero_le _⟩
    · next hb =>
      obtain ⟨t, rfl, rfl, rfl⟩ := of_word_behind (by simp) hs hb (by decide) h
      exact ⟨t, .false t, rfl, Nat.zero_le _⟩
    · next hb =>
      obtain ⟨s₂, rfl, rfl⟩ := encode_eq_glyph hs hb (by decide)
      obtain ⟨t, ht, hr, hdepth⟩ := spells_of_text h
      exact ⟨t, ht, hr, by rw [hdepth]; exact Nat.zero_le _⟩
    · next hb =>
      obtain ⟨s₂, rfl, rfl⟩ := encode_eq_glyph hs hb (by decide)
      obtain ⟨t, ht, hr, hdepth⟩ := spells_of_number h
      exact ⟨t, ht, hr, by rw [hdepth]; exact Nat.zero_le _⟩
    · next hb =>
      obtain ⟨s₂, rfl, rfl⟩ := encode_eq_glyph hs hb (by decide)
      cases levels with
      | zero => cases h
      | succ levels => exact spells_of_sequence (ih levels (Nat.lt_succ_self _)) h
    · next hb =>
      obtain ⟨s₂, rfl, rfl⟩ := encode_eq_glyph hs hb (by decide)
      cases levels with
      | zero => cases h
      | succ levels => exact spells_of_object (ih levels (Nat.lt_succ_self _)) h
    · split at h
      · rw [← hs] at h
        obtain ⟨t, ht, hr, hdepth⟩ := spells_of_number h
        exact ⟨t, ht, hr, by rw [hdepth]; exact Nat.zero_le _⟩
      · cases h

/-! ## Whole texts -/

/-- One value with blanks around it is read in front of nothing. -/
theorem Document.reads {s : List Char} {v : Json} (h : Document s v)
    (hdepth : v.depth ≤ nestingLimit) : document (encode s) = .ok v := by
  have hfuel : s.length ≤ (encode s).length + 1 := Nat.le_succ_of_le (length_le_encode s)
  obtain ⟨u, hback, hread⟩ := SpellsSpaced.reads h nestingLimit hdepth hfuel ends_nil
  have hfinish : finish (encode u) = .ok () := by
    unfold finish
    rw [hback.skipSpace]
    rfl
  unfold document
  rw [hread]
  simp only [bind, Except.bind, hfinish, pure, Except.pure]

/-- A whole text is read exactly if it is a document within the limit of nesting. -/
theorem read_iff {s : List Char} {v : Json} :
    read (encode s) = .ok v ↔ Document s v ∧ v.depth ≤ nestingLimit := by
  constructor
  · intro h
    unfold read document at h
    rcases hread : value ((encode s).length + 1) nestingLimit (encode s) with f | ⟨w, r⟩
    · rw [hread] at h
      cases h
    obtain ⟨s₁, t, hfront, hv, rfl, hdepth⟩ := spells_of_value _ _ s w r hread
    obtain ⟨u, hback, hskip⟩ := blanks_of_skipSpace t
    rcases hu : encode u with _ | ⟨b, r⟩
    · rw [hread] at h
      simp only [bind, Except.bind, finish, hskip, hu, pure, Except.pure, Except.mapError,
        Except.ok.injEq] at h
      obtain rfl := encode_eq_nil hu
      subst h
      exact ⟨.mk hfront hv hback, hdepth⟩
    · rw [hread] at h
      simp only [bind, Except.bind, finish, hskip, hu, stopAt, Except.mapError] at h
      cases h
  · -- what is spelled is read, whatever the fuel, as long as it nests no deeper than the limit
    rintro ⟨h, hdepth⟩
    unfold read
    rw [h.reads hdepth]
    rfl

end Json
end KernelLink
