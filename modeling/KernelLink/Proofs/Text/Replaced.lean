import KernelLink.Proofs.Text.Fronts
/-!
# What lossy reading replaces

Strict reading accepts the bytes of a text and nothing else: whatever is cut into complete
characters was written by writing them. So lossy reading, which accepts everything, gives back the
bytes of a text as they were and changes all others. What it puts in the place of a broken sequence
is a character of its own, so a text that contains this character is read off other bytes as well.

Main results:
* `Utf8.exists_char`: complete characters begin with the bytes of one.
* `Utf8.decode_eq_ok_iff`: strict reading accepts what was written, and nothing else.
* `Utf8.bytes_lossy_iff`: what lossy reading gives back as it was.
* `Utf8.lossy_tells_iff`: what lossy reading tells from everything else.
-/
namespace KernelLink.Text.Utf8

variable {bs : List UInt8} {cs : List Char}

/-! ## One character -/

/-- A character made from a number keeps it, unless it is that of a surrogate or too large. -/
theorem toNat_ofNat {n : Nat} (h : n < 0xD800 ∨ 0xDFFF < n ∧ n < 0x110000) :
    (Char.ofNat n).val.toNat = n := by
  unfold Char.ofNat
  rw [dif_pos (show n.isValidChar from h)]
  rfl

theorem byte_eq {b : UInt8} {n : Nat} (h : b.toNat = n) : b = UInt8.ofNat n := by
  rw [← h, UInt8.ofNat_toNat]

/-- The bytes of a character are complete, and the pieces begin anew behind them. -/
theorem pieces_encoded_append (c : Char) (bs : List UInt8) :
    pieces (String.utf8EncodeChar c ++ bs) = .char c :: pieces bs := by
  rw [pieces_append bs fun piece hp => ?_, pieces_utf8EncodeChar]
  · rfl
  · rw [pieces_utf8EncodeChar, List.mem_singleton] at hp
    exact ⟨c, hp⟩

/-- The bytes of a text are cut into the characters of that text. -/
theorem chars_of_encode (cs : List Char) : ∀ piece ∈ pieces (encode cs), ∃ c, piece = .char c := by
  intro piece hp
  rw [pieces_encode] at hp
  obtain ⟨c, -, rfl⟩ := List.mem_map.mp hp
  exact ⟨c, rfl⟩

/-- A byte that is a piece of its own stands in front of the pieces of the others. -/
theorem pieces_cons {b : UInt8} {piece : Piece} (bs : List UInt8) (h : lead b.toNat = .inl piece) :
    pieces (b :: bs) = piece :: pieces bs := by
  have hfrom : piecesFrom [] none (b :: bs) = piecesFrom [piece] none bs := by
    simp only [piecesFrom, h]
  unfold pieces
  rw [hfrom, piecesFrom_eq, List.reverse_append]
  rfl

/-- A byte that is a character is that of an ASCII character. -/
theorem lt_of_lead_char {n : Nat} {c : Char} (h : lead n = .inl (.char c)) : n < 0x80 := by
  by_contra hn
  unfold lead at h
  rw [if_neg hn] at h
  repeat' split at h
  all_goals simp at h

/-- What a first byte begins, if more bytes are to come: so many of them, and within which bounds
the next has to be. -/
theorem lead_pending {n : Nat} {p : Pending} (h : lead n = .inr p) :
    (0xC2 ≤ n ∧ n < 0xE0 ∧ p = ⟨1, n - 0xC0, 0, 0x80, 0xBF⟩) ∨
      (∃ low high, (0xE0 ≤ n ∧ n < 0xF0) ∧ p = ⟨1, n - 0xE0, 1, low, high⟩ ∧
        (0x80 ≤ low ∧ high ≤ 0xBF) ∧ (n = 0xE0 → 0xA0 ≤ low) ∧ (n = 0xED → high ≤ 0x9F)) ∨
      ∃ low high, (0xF0 ≤ n ∧ n ≤ 0xF4) ∧ p = ⟨1, n - 0xF0, 2, low, high⟩ ∧
        (0x80 ≤ low ∧ high ≤ 0xBF) ∧ (n = 0xF0 → 0x90 ≤ low) ∧ (n = 0xF4 → high ≤ 0x8F) := by
  unfold lead at h
  split at h
  · exact nomatch h
  split at h
  · exact nomatch h
  split at h
  · obtain rfl := Sum.inr.inj h
    exact .inl ⟨by omega, by omega, rfl⟩
  -- three bytes
  split at h
  · next heq =>
    obtain rfl : n = 0xE0 := by simpa using heq
    obtain rfl := Sum.inr.inj h
    exact .inr (.inl ⟨0xA0, 0xBF, by decide, rfl, by decide, fun _ => by decide, by decide⟩)
  split at h
  · next heq =>
    obtain rfl : n = 0xED := by simpa using heq
    obtain rfl := Sum.inr.inj h
    exact .inr (.inl ⟨0x80, 0x9F, by decide, rfl, by decide, by decide, fun _ => by decide⟩)
  split at h
  · next h0 hD _ =>
    obtain rfl := Sum.inr.inj h
    replace h0 : n ≠ 0xE0 := by simpa using h0
    replace hD : n ≠ 0xED := by simpa using hD
    exact .inr (.inl ⟨0x80, 0xBF, by omega, rfl, by decide, by omega, by omega⟩)
  -- four bytes
  split at h
  · next heq =>
    obtain rfl : n = 0xF0 := by simpa using heq
    obtain rfl := Sum.inr.inj h
    exact .inr (.inr ⟨0x90, 0xBF, by decide, rfl, by decide, fun _ => by decide, by decide⟩)
  split at h
  · next h0 _ =>
    obtain rfl := Sum.inr.inj h
    replace h0 : n ≠ 0xF0 := by simpa using h0
    exact .inr (.inr ⟨0x80, 0xBF, by omega, rfl, by decide, by omega, by omega⟩)
  split at h
  · next heq =>
    obtain rfl : n = 0xF4 := by simpa using heq
    obtain rfl := Sum.inr.inj h
    exact .inr (.inr ⟨0x80, 0x8F, by decide, rfl, by decide, by decide, fun _ => by decide⟩)
  · exact nomatch h

/-- Where nothing is broken, a pending character is joined by a byte that it admits. -/
theorem joined_of_chars {p : Pending}
    (h : ∀ piece ∈ piecesFrom [] (some p) bs, ∃ c, piece = .char c) :
    ∃ b rest, bs = b :: rest ∧ p.low ≤ b.toNat ∧ b.toNat ≤ p.high ∧
      ∀ q, p.join b.toNat = .inr q → piecesFrom [] (some q) rest = piecesFrom [] (some p) bs := by
  cases bs with
  | nil =>
    obtain ⟨c, hc⟩ := h (.unfinished p.size) List.mem_cons_self
    exact Piece.noConfusion hc
  | cons b rest =>
    by_cases hin : (p.low ≤ b.toNat && b.toNat ≤ p.high) = true
    · have hbounds : p.low ≤ b.toNat ∧ b.toNat ≤ p.high := by simpa using hin
      refine ⟨b, rest, rfl, hbounds.1, hbounds.2, fun q hq => ?_⟩
      rw [piecesFrom, if_pos hin, hq]
    · -- the byte that is not admitted would leave a broken sequence behind
      have hbroken : Piece.broken p.size ∈ piecesFrom [] (some p) (b :: rest) := by
        rw [piecesFrom, if_neg hin]
        split
        · rw [piecesFrom_eq]
          exact List.mem_append_right _ (List.mem_cons_of_mem _ List.mem_cons_self)
        · rw [piecesFrom_eq]
          exact List.mem_append_right _ List.mem_cons_self
      obtain ⟨c, hc⟩ := h _ hbroken
      exact Piece.noConfusion hc

/-- Two bytes in these ranges are those of a character, namely of the one whose number they spell.
-/
theorem eq_encoded_two {a b : UInt8} (ha : 0xC2 ≤ a.toNat ∧ a.toNat < 0xE0)
    (hb : 0x80 ≤ b.toNat ∧ b.toNat ≤ 0xBF) : ∃ c, [a, b] = String.utf8EncodeChar c := by
  obtain ⟨v, hv⟩ : ∃ v, v = (a.toNat - 0xC0) * 64 + (b.toNat - 0x80) := ⟨_, rfl⟩
  refine ⟨Char.ofNat v, ?_⟩
  unfold String.utf8EncodeChar
  simp only [toNat_ofNat (show v < 0xD800 ∨ 0xDFFF < v ∧ v < 0x110000 by omega)]
  rw [if_neg (by omega), if_pos (by omega), ← byte_eq (b := a) (by omega),
    ← byte_eq (b := b) (by omega)]

/-- Three bytes in these ranges are those of a character; the last two conditions keep out what
would be too long and the surrogates. -/
theorem eq_encoded_three {a b c : UInt8} (ha : 0xE0 ≤ a.toNat ∧ a.toNat < 0xF0)
    (hb : 0x80 ≤ b.toNat ∧ b.toNat ≤ 0xBF) (hc : 0x80 ≤ c.toNat ∧ c.toNat ≤ 0xBF)
    (hshort : a.toNat = 0xE0 → 0xA0 ≤ b.toNat) (hsurrogate : a.toNat = 0xED → b.toNat ≤ 0x9F) :
    ∃ d, [a, b, c] = String.utf8EncodeChar d := by
  obtain ⟨v, hv⟩ : ∃ v, v = ((a.toNat - 0xE0) * 64 + (b.toNat - 0x80)) * 64 + (c.toNat - 0x80) :=
    ⟨_, rfl⟩
  refine ⟨Char.ofNat v, ?_⟩
  unfold String.utf8EncodeChar
  simp only [toNat_ofNat (show v < 0xD800 ∨ 0xDFFF < v ∧ v < 0x110000 by omega)]
  rw [if_neg (by omega), if_neg (by omega), if_pos (by omega), ← byte_eq (b := a) (by omega),
    ← byte_eq (b := b) (by omega), ← byte_eq (b := c) (by omega)]

/-- Four bytes in these ranges are those of a character; the conditions on the second keep out what
would be too long or too large. -/
theorem eq_encoded_four {a b c d : UInt8} (ha : 0xF0 ≤ a.toNat ∧ a.toNat ≤ 0xF4)
    (hb : 0x80 ≤ b.toNat ∧ b.toNat ≤ 0xBF) (hc : 0x80 ≤ c.toNat ∧ c.toNat ≤ 0xBF)
    (hd : 0x80 ≤ d.toNat ∧ d.toNat ≤ 0xBF) (hshort : a.toNat = 0xF0 → 0x90 ≤ b.toNat)
    (hlarge : a.toNat = 0xF4 → b.toNat ≤ 0x8F) :
    ∃ e, [a, b, c, d] = String.utf8EncodeChar e := by
  obtain ⟨v, hv⟩ : ∃ v, v = (((a.toNat - 0xF0) * 64 + (b.toNat - 0x80)) * 64 +
    (c.toNat - 0x80)) * 64 + (d.toNat - 0x80) := ⟨_, rfl⟩
  refine ⟨Char.ofNat v, ?_⟩
  unfold String.utf8EncodeChar
  simp only [toNat_ofNat (show v < 0xD800 ∨ 0xDFFF < v ∧ v < 0x110000 by omega)]
  rw [if_neg (by omega), if_neg (by omega), if_neg (by omega), ← byte_eq (b := a) (by omega),
    ← byte_eq (b := b) (by omega), ← byte_eq (b := c) (by omega), ← byte_eq (b := d) (by omega)]

/-- Where nothing is broken, the first bytes are those of a character. -/
theorem exists_char (hne : bs ≠ []) (h : ∀ piece ∈ pieces bs, ∃ c, piece = .char c) :
    ∃ c rest, bs = String.utf8EncodeChar c ++ rest := by
  obtain ⟨a, rest, rfl⟩ := List.exists_cons_of_ne_nil hne
  cases hlead : lead a.toNat with
  | inl piece =>
    obtain ⟨c, rfl⟩ := h piece (pieces_cons rest hlead ▸ List.mem_cons_self)
    have ha := lt_of_lead_char hlead
    refine ⟨Char.ofNat a.toNat, rest, ?_⟩
    unfold String.utf8EncodeChar
    simp only [toNat_ofNat (show a.toNat < 0xD800 ∨ _ by omega)]
    rw [if_pos (by omega), ← byte_eq (b := a) rfl]
    rfl
  | inr p =>
    have hfrom : piecesFrom [] none (a :: rest) = piecesFrom [] (some p) rest :=
      piecesFrom_lead rest rfl hlead
    -- no piece is broken, so each byte that is still to come does come and is in its range
    have hp : ∀ piece ∈ piecesFrom [] (some p) rest, ∃ c, piece = .char c :=
      fun piece hmem => h piece (List.mem_reverse.mpr (hfrom ▸ hmem))
    obtain ⟨b, rest, rfl, hb⟩ := joined_of_chars hp
    rcases lead_pending hlead with ⟨hlow, hhigh, rfl⟩ | ⟨low, high, ha, rfl, hrange, hshort, hsur⟩ |
      ⟨low, high, ha, rfl, hrange, hshort, hlarge⟩
    · obtain ⟨c, hc⟩ := eq_encoded_two ⟨hlow, hhigh⟩ ⟨hb.1, hb.2.1⟩
      exact ⟨c, rest, by rw [← hc]; rfl⟩
    · obtain ⟨hblow, hbhigh, hjoin⟩ := hb
      obtain ⟨c, rest, rfl, hc, hc', -⟩ := joined_of_chars ((hjoin _ rfl).symm ▸ hp)
      obtain ⟨d, hd⟩ := eq_encoded_three ha ⟨hrange.1.trans hblow, hbhigh.trans hrange.2⟩ ⟨hc, hc'⟩
        (fun h0 => (hshort h0).trans hblow) fun hD => hbhigh.trans (hsur hD)
      exact ⟨d, rest, by rw [← hd]; rfl⟩
    · obtain ⟨hblow, hbhigh, hjoin⟩ := hb
      obtain ⟨c, rest, rfl, hc, hc', hjoin'⟩ := joined_of_chars ((hjoin _ rfl).symm ▸ hp)
      obtain ⟨d, rest, rfl, hd, hd', -⟩ :=
        joined_of_chars ((hjoin' _ rfl).trans (hjoin _ rfl) |>.symm ▸ hp)
      obtain ⟨e, he⟩ := eq_encoded_four ha ⟨hrange.1.trans hblow, hbhigh.trans hrange.2⟩ ⟨hc, hc'⟩
        ⟨hd, hd'⟩ (fun h0 => (hshort h0).trans hblow) fun h4 => hbhigh.trans (hlarge h4)
      exact ⟨e, rest, by rw [← he]; rfl⟩

/-! ## Text -/

/-- Bytes that are cut into complete characters were written by writing these characters. -/
theorem eq_encode_of_pieces (h : pieces bs = cs.map Piece.char) : bs = encode cs := by
  -- by induction on the characters: the first of them takes its bytes away
  induction cs generalizing bs with
  | nil =>
    by_contra hne
    have hno : ∀ piece ∈ pieces bs, ∃ c, piece = .char c := by simp [h]
    obtain ⟨c, rest, rfl⟩ := exists_char hne hno
    rw [pieces_encoded_append] at h
    exact nomatch h
  | cons c cs ih =>
    have hchars : ∀ piece ∈ pieces bs, ∃ c, piece = .char c := by
      rw [h]
      intro piece hp
      obtain ⟨d, -, rfl⟩ := List.mem_map.mp hp
      exact ⟨d, rfl⟩
    have hne : bs ≠ [] := by
      rintro rfl
      exact nomatch h
    obtain ⟨d, rest, rfl⟩ := exists_char hne hchars
    rw [pieces_encoded_append, List.map_cons] at h
    obtain ⟨hd, hrest⟩ := List.cons.inj h
    rw [encode_cons, ← Piece.char.inj hd, ← ih hrest]

/-- Strict reading accepts what was written, and nothing else, as each of its pieces is a character
with its bytes. -/
theorem decode_eq_ok_iff {t : String} : decode bs = .ok t ↔ bs = bytes t := by
  constructor
  · intro h
    exact eq_encode_of_pieces (pieces_of_decode h)
  · rintro rfl
    exact (decode_encode t.toList).trans (congrArg _ String.ofList_toList)

/-- Lossy reading undoes writing as well, since there is nothing to replace. -/
theorem lossy_encode (cs : List Char) : lossy (encode cs) = String.ofList cs := by
  unfold lossy
  rw [pieces_encode, List.map_map]
  exact congrArg String.ofList (List.map_id cs)

theorem lossy_bytes (t : String) : lossy (bytes t) = t :=
  (lossy_encode t.toList).trans String.ofList_toList

/-- Lossy reading gives back the bytes of a text as they were, and changes all others. -/
theorem bytes_lossy_iff : bytes (lossy bs) = bs ↔ ∃ t, bs = bytes t := by
  constructor
  · intro h
    exact ⟨lossy bs, h.symm⟩
  · rintro ⟨t, rfl⟩
    rw [lossy_bytes]

/-! ## What is put in the place of broken sequences -/

/-- What is shown in the place of a broken sequence. -/
def replacement : Char := Char.ofNat 0xFFFD

/-- Where no replacement is shown, nothing was broken. -/
theorem eq_bytes_of_lossy (h : replacement ∉ (lossy bs).toList) : bs = bytes (lossy bs) := by
  unfold bytes
  refine eq_encode_of_pieces ?_
  unfold lossy at h ⊢
  rw [String.toList_ofList] at h ⊢
  rw [List.map_map]
  refine (List.map_congr_left fun piece hp => ?_).trans (List.map_id _) |>.symm
  cases piece with
  | char c => rfl
  | broken size => exact absurd (List.mem_map_of_mem hp) h
  | unfinished size => exact absurd (List.mem_map_of_mem hp) h

/-- A byte that begins no character is replaced. -/
theorem lossy_cons_stray (bs : List UInt8) :
    lossy (0xFF :: bs) = String.ofList [replacement] ++ lossy bs := by
  unfold lossy
  rw [pieces_cons bs (show lead (0xFF : UInt8).toNat = .inl (.broken 1) from rfl), List.map_cons,
    ← String.ofList_append]
  rfl

/-- Lossy reading tells the bytes of a text that contains no replacement from all others, and no
other bytes. -/
theorem lossy_tells_iff :
    (∀ other, lossy other = lossy bs → other = bs) ↔
      ∃ t, bs = bytes t ∧ replacement ∉ t.toList := by
  constructor
  · intro h
    -- the text that is read reads as itself
    obtain ⟨t, rfl⟩ : ∃ t, bs = bytes t :=
      ⟨lossy bs, (h (bytes (lossy bs)) (lossy_bytes _)).symm⟩
    refine ⟨t, rfl, fun hin => ?_⟩
    -- a stray byte reads as the replacement does
    obtain ⟨front, back, hcut⟩ := List.append_of_mem hin
    have hread : lossy (encode front ++ 0xFF :: encode back) = t := by
      rw [lossy_append _ (chars_of_encode front), lossy_cons_stray, lossy_encode, lossy_encode,
        ← String.ofList_append, ← String.ofList_append, List.singleton_append, ← hcut]
      exact String.ofList_toList
    have hsame := h _ (hread.trans (lossy_bytes t).symm)
    unfold bytes at hsame
    rw [hcut, encode_append, encode_cons] at hsame
    exact absurd (List.append_cancel_left hsame) (by
      rw [show String.utf8EncodeChar replacement = [0xEF, 0xBF, 0xBD] from by decide]
      intro hcons
      exact absurd (List.cons.inj hcons).1 (by decide))
  · rintro ⟨t, rfl, hno⟩ other hother
    rw [lossy_bytes] at hother
    have hbytes : other = bytes (lossy other) := eq_bytes_of_lossy (hother.symm ▸ hno)
    rw [hbytes, hother]

end KernelLink.Text.Utf8
