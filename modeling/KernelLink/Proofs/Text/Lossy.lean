import KernelLink.Text.Blank
import KernelLink.Text.Utf8
import Mathlib.Data.List.TakeWhile
/-!
# Lossy reading in parts

Where a byte stream is cut matters to a lossy reader: a character that the cut goes through is
broken on both sides. Where the front reads as blanks nothing was cut, since U+FFFD is no blank, and
then the parts read as the whole does.

Main definition:
* `IsBlankBytes`: bytes that read as nothing but blanks.

Main results:
* `Utf8.lossy_append`: reading in parts, behind a front of characters.
* `IsBlankBytes.append`: blanks behind blanks are blanks.
-/
namespace KernelLink.Text

namespace Utf8

/-! ## Pieces -/

/-- Pieces found earlier stay behind those found later; by induction on the bytes, for every pending
character. -/
theorem piecesFrom_eq (found : List Piece) (p : Option Pending) (bs : List UInt8) :
    piecesFrom found p bs = piecesFrom [] p bs ++ found := by
  induction bs generalizing found p with
  | nil => cases p <;> rfl
  | cons b bs ih =>
    cases p with
    | none =>
      unfold piecesFrom
      split
      · next piece _ => rw [ih (piece :: found), ih [piece], List.append_assoc]; rfl
      · next p _ => exact ih found (some p)
    | some p =>
      unfold piecesFrom
      split
      · split
        · next piece _ => rw [ih (piece :: found), ih [piece], List.append_assoc]; rfl
        · next q _ => exact ih found (some q)
      · split
        · next piece _ =>
          rw [ih (piece :: .broken p.size :: found), ih [piece, .broken p.size],
            List.append_assoc]
          rfl
        · next q _ =>
          rw [ih (.broken p.size :: found), ih [.broken p.size], List.append_assoc]
          rfl

/-- Behind a front of complete characters the pieces begin anew, for nothing is pending at its end.
-/
theorem piecesFrom_append {found : List Piece} {p : Option Pending} {as : List UInt8}
    (bs : List UInt8) (h : ∀ piece ∈ piecesFrom found p as, ∃ c, piece = .char c) :
    piecesFrom found p (as ++ bs) = piecesFrom (piecesFrom found p as) none bs := by
  induction as generalizing found p with
  | nil =>
    cases p with
    | none => rfl
    | some p =>
      -- the front would end in the middle of a character
      obtain ⟨c, hc⟩ := h (.unfinished p.size) List.mem_cons_self
      exact Piece.noConfusion hc
  | cons a as ih =>
    rw [List.cons_append]
    cases p with
    | none =>
      simp only [piecesFrom] at h ⊢
      cases hlead : lead a.toNat with
      | inl piece =>
        rw [hlead] at h
        exact ih h
      | inr p =>
        rw [hlead] at h
        exact ih h
    | some p =>
      simp only [piecesFrom] at h ⊢
      by_cases hin : (p.low ≤ a.toNat && a.toNat ≤ p.high) = true
      · simp only [hin, if_true] at h ⊢
        cases hjoin : p.join a.toNat with
        | inl piece =>
          rw [hjoin] at h
          exact ih h
        | inr q =>
          rw [hjoin] at h
          exact ih h
      · simp only [hin] at h ⊢
        cases hlead : lead a.toNat with
        | inl piece =>
          rw [hlead] at h
          exact ih h
        | inr q =>
          rw [hlead] at h
          exact ih h

/-- A stream whose front is complete characters is cut behind it without breaking anything. -/
theorem pieces_append {as : List UInt8} (bs : List UInt8)
    (h : ∀ piece ∈ pieces as, ∃ c, piece = .char c) :
    pieces (as ++ bs) = pieces as ++ pieces bs := by
  have hchars : ∀ piece ∈ piecesFrom [] none as, ∃ c, piece = .char c :=
    fun piece hp => h piece (List.mem_reverse.mpr hp)
  unfold pieces
  rw [piecesFrom_append bs hchars, piecesFrom_eq, List.reverse_append]

/-- Behind a front of complete characters lossy reading begins anew. -/
theorem lossy_append {as : List UInt8} (bs : List UInt8)
    (h : ∀ piece ∈ pieces as, ∃ c, piece = .char c) :
    lossy (as ++ bs) = lossy as ++ lossy bs := by
  unfold lossy
  rw [pieces_append bs h, List.map_append, String.ofList_append]

end Utf8

/-! ## Blanks -/

/-- The bytes read as nothing but blanks. -/
def IsBlankBytes (bs : List UInt8) : Prop := isBlankText (Utf8.lossy bs) = true

instance (bs : List UInt8) : Decidable (IsBlankBytes bs) :=
  inferInstanceAs (Decidable (isBlankText (Utf8.lossy bs) = true))

theorem isBlankBytes_nil : IsBlankBytes [] := rfl

/-- Bytes are blank if each piece of them is shown as a blank. -/
theorem isBlankBytes_iff {bs : List UInt8} :
    IsBlankBytes bs ↔ ∀ piece ∈ Utf8.pieces bs, isBlank piece.shown = true := by
  unfold IsBlankBytes isBlankText Utf8.lossy
  rw [String.toList_ofList, List.all_map, List.all_eq_true]
  rfl

/-- U+FFFD is no blank, so broken bytes never read as blanks. -/
theorem isBlank_replacement : isBlank (Char.ofNat 0xFFFD) = false := by decide

/-- Blanks are complete characters, for a broken one would be shown as U+FFFD. -/
theorem IsBlankBytes.chars {bs : List UInt8} (h : IsBlankBytes bs) :
    ∀ piece ∈ Utf8.pieces bs, ∃ c, piece = .char c := by
  intro piece hp
  have hb := isBlankBytes_iff.mp h piece hp
  cases piece with
  | char c => exact ⟨c, rfl⟩
  | broken size => exact absurd (hb.symm.trans isBlank_replacement) Bool.true_eq_false.mp
  | unfinished size => exact absurd (hb.symm.trans isBlank_replacement) Bool.true_eq_false.mp

/-- Blanks behind blanks are blanks, as no character is cut between the two. -/
theorem IsBlankBytes.append {as bs : List UInt8} (ha : IsBlankBytes as) (hb : IsBlankBytes bs) :
    IsBlankBytes (as ++ bs) := by
  rw [isBlankBytes_iff, Utf8.pieces_append bs ha.chars]
  intro piece hp
  rcases List.mem_append.mp hp with hp | hp
  · exact isBlankBytes_iff.mp ha piece hp
  · exact isBlankBytes_iff.mp hb piece hp

/-- What is left of a text without the blanks at its end is empty if there were only blanks. -/
theorem isEmpty_trimmedEnd (s : String) : (trimmedEnd s).isEmpty = isBlankText s := by
  have hempty : trimEnd s.toList = [] ↔ isBlankText s = true := by
    unfold trimEnd trimStart isBlankText
    rw [List.reverse_eq_nil_iff, List.dropWhile_eq_nil_iff, List.all_eq_true]
    exact ⟨fun h c hc => h c (List.mem_reverse.mpr hc), fun h c hc => h c (List.mem_reverse.mp hc)⟩
  rw [Bool.eq_iff_iff, ← hempty, String.isEmpty_iff]
  unfold trimmedEnd
  exact String.ofList_eq_empty_iff

end KernelLink.Text
