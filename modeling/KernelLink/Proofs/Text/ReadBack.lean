import KernelLink.Proofs.Text.Lossy
/-!
# Text reads back

A character is written as one to four bytes. Read one byte at a time they are one piece, which is
that character, so strict reading undoes writing, whatever the characters are.

Main results:
* `Utf8.pieces_utf8EncodeChar`: the bytes of a character are one piece.
* `Utf8.decode_encode`: strict reading undoes writing.
-/
namespace KernelLink.Text.Utf8

/-! ## One character -/

/-- A first byte begins a character of which more bytes are to come. -/
theorem piecesFrom_lead {found : List Piece} {b : UInt8} {n : Nat} {p : Pending} (bs : List UInt8)
    (hb : b.toNat = n) (h : lead n = .inr p) :
    piecesFrom found none (b :: bs) = piecesFrom found (some p) bs := by
  simp only [piecesFrom, hb, h]

/-- A byte that a pending character admits is joined to it. -/
theorem piecesFrom_join {found : List Piece} {b : UInt8} {n size bits more low high : Nat}
    (bs : List UInt8) (hb : b.toNat = n) (hlow : low ≤ n) (hhigh : n ≤ high) :
    piecesFrom found (some ⟨size, bits, more + 1, low, high⟩) (b :: bs) =
      piecesFrom found (some ⟨size + 1, bits * 64 + (n - 0x80), more, 0x80, 0xBF⟩) bs := by
  simp [piecesFrom, Pending.join, hb, hlow, hhigh]

/-- The last byte of a character completes it. -/
theorem piecesFrom_close {found : List Piece} {b : UInt8} {n size bits low high : Nat}
    (bs : List UInt8) (hb : b.toNat = n) (hlow : low ≤ n) (hhigh : n ≤ high) :
    piecesFrom found (some ⟨size, bits, 0, low, high⟩) (b :: bs) =
      piecesFrom (.char (Char.ofNat (bits * 64 + (n - 0x80))) :: found) none bs := by
  simp [piecesFrom, Pending.join, hb, hlow, hhigh]

/-- The first of three bytes admits the second, unless the form would be overlong or a
surrogate. -/
theorem lead_three {n b : Nat} (hn : 0xE0 ≤ n ∧ n ≤ 0xEF) (hb : 0x80 ≤ b ∧ b ≤ 0xBF)
    (hshort : n = 0xE0 → 0xA0 ≤ b) (hsurrogate : n = 0xED → b ≤ 0x9F) :
    ∃ low high, lead n = .inr ⟨1, n - 0xE0, 1, low, high⟩ ∧ low ≤ b ∧ b ≤ high := by
  have h80 : ¬ n < 0x80 := by omega
  have hC2 : ¬ n < 0xC2 := by omega
  have hE0 : ¬ n < 0xE0 := by omega
  unfold lead
  rw [if_neg h80, if_neg hC2, if_neg hE0]
  by_cases h0 : n = 0xE0
  · subst h0
    exact ⟨0xA0, 0xBF, rfl, hshort rfl, hb.2⟩
  by_cases hD : n = 0xED
  · subst hD
    exact ⟨0x80, 0x9F, rfl, hb.1, hsurrogate rfl⟩
  have hF0 : n < 0xF0 := by omega
  exact ⟨0x80, 0xBF, by simp [h0, hD, hF0], hb⟩

/-- The first of four bytes admits the second, unless the form would be overlong or too large. -/
theorem lead_four {n b : Nat} (hn : 0xF0 ≤ n ∧ n ≤ 0xF4) (hb : 0x80 ≤ b ∧ b ≤ 0xBF)
    (hshort : n = 0xF0 → 0x90 ≤ b) (hlarge : n = 0xF4 → b ≤ 0x8F) :
    ∃ low high, lead n = .inr ⟨1, n - 0xF0, 2, low, high⟩ ∧ low ≤ b ∧ b ≤ high := by
  have h80 : ¬ n < 0x80 := by omega
  have hC2 : ¬ n < 0xC2 := by omega
  have hE0 : ¬ n < 0xE0 := by omega
  have hF0 : ¬ n < 0xF0 := by omega
  have h0 : n ≠ 0xE0 := by omega
  have hD : n ≠ 0xED := by omega
  unfold lead
  rw [if_neg h80, if_neg hC2, if_neg hE0]
  by_cases hF : n = 0xF0
  · subst hF
    exact ⟨0x90, 0xBF, rfl, hshort rfl, hb.2⟩
  by_cases h4 : n = 0xF4
  · subst h4
    exact ⟨0x80, 0x8F, rfl, hb.1, hlarge rfl⟩
  have hF4 : n < 0xF4 := by omega
  exact ⟨0x80, 0xBF, by simp [h0, hD, hF0, hF, hF4], hb⟩

/-- The bytes of a character are one piece; a case for each of the four lengths, where the ranges of
the first byte tell how many are to follow. -/
theorem pieces_utf8EncodeChar (c : Char) : pieces (String.utf8EncodeChar c) = [.char c] := by
  have hvalid : c.toNat < 0xD800 ∨ 0xDFFF < c.toNat ∧ c.toNat < 0x110000 := c.valid
  have hc : ∀ n, n = c.toNat → Char.ofNat n = c := fun n h => by rw [h, Char.ofNat_toNat]
  have hbyte : ∀ n < 256, (UInt8.ofNat n).toNat = n := fun n h => by simp; omega
  have hlast := hbyte (c.toNat % 0x40 + 0x80) (by omega)
  have hthird := hbyte (c.toNat / 64 % 0x40 + 0x80) (by omega)
  unfold pieces String.utf8EncodeChar
  simp only [show c.val.toNat = c.toNat from rfl]
  -- one case for each length of the encoding
  split
  · next h =>
    simp [piecesFrom, lead, hbyte c.toNat (by omega), show c.toNat < 0x80 by omega]
  split
  · next h1 h2 =>
    have hlead : lead (c.toNat / 64 % 0x20 + 0xC0) = .inr ⟨1, c.toNat / 64, 0, 0x80, 0xBF⟩ := by
      unfold lead
      rw [if_neg (by omega), if_neg (by omega), if_pos (by omega), Nat.add_sub_cancel,
        Nat.mod_eq_of_lt (by omega)]
    rw [piecesFrom_lead _ (hbyte _ (by omega)) hlead,
      piecesFrom_close _ hlast (by omega) (by omega), hc _ (by omega)]
    rfl
  split
  · next h1 h2 h3 =>
    obtain ⟨low, high, hlead, hlow, hhigh⟩ := @lead_three (c.toNat / 4096 % 0x10 + 0xE0)
      (c.toNat / 64 % 0x40 + 0x80) (by omega) (by omega) (by omega) (by omega)
    rw [piecesFrom_lead _ (hbyte _ (by omega)) hlead, piecesFrom_join _ hthird hlow hhigh,
      piecesFrom_close _ hlast (by omega) (by omega), hc _ (by omega)]
    rfl
  · next h1 h2 h3 =>
    obtain ⟨low, high, hlead, hlow, hhigh⟩ := @lead_four (c.toNat / 262144 % 0x08 + 0xF0)
      (c.toNat / 4096 % 0x40 + 0x80) (by omega) (by omega) (by omega) (by omega)
    rw [piecesFrom_lead _ (hbyte _ (by omega)) hlead,
      piecesFrom_join _ (hbyte _ (by omega)) hlow hhigh,
      piecesFrom_join _ hthird (by omega) (by omega),
      piecesFrom_close _ hlast (by omega) (by omega), hc _ (by omega)]
    rfl

/-! ## Text -/

theorem encode_cons (c : Char) (cs : List Char) :
    encode (c :: cs) = String.utf8EncodeChar c ++ encode cs := List.flatMap_cons

theorem encode_append (cs ds : List Char) : encode (cs ++ ds) = encode cs ++ encode ds :=
  List.flatMap_append

/-- The pieces of written text are its characters, by induction on the text. -/
theorem pieces_encode (cs : List Char) : pieces (encode cs) = cs.map Piece.char := by
  induction cs with
  | nil => rfl
  | cons c cs ih =>
    rw [encode_cons, pieces_append, pieces_utf8EncodeChar, ih]
    · rfl
    · intro piece hp
      rw [pieces_utf8EncodeChar, List.mem_singleton] at hp
      exact ⟨c, hp⟩

/-- Pieces that are characters are read as these. Induction on them, with what was read before left
open. -/
theorem charsOf_map_char (index : Nat) (read cs : List Char) :
    charsOf index read (cs.map Piece.char) = .ok (read.reverse ++ cs) := by
  induction cs generalizing index read with
  | nil =>
    rw [List.append_nil]
    rfl
  | cons c cs ih =>
    rw [List.map_cons, charsOf, ih, List.reverse_cons, List.append_assoc]
    rfl

/-- Strict reading undoes writing, for every text. -/
theorem decode_encode (cs : List Char) : decode (encode cs) = .ok (String.ofList cs) := by
  unfold decode
  rw [pieces_encode, charsOf_map_char]
  rfl

end KernelLink.Text.Utf8
