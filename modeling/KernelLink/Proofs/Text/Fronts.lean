import KernelLink.Proofs.Text.ReadBack
import Mathlib.Data.List.DropRight
import Mathlib.Data.List.Infix
/-!
# Fronts of texts

Trimming a front of a text gives a front of the trimmed text, since what trimming takes off the end
of the front is taken off the whole as well, unless something stands behind it. A front of the bytes
of a text that reads as text reads as a front of it: a cut through a character does not read.

Main results:
* `trim_front`: trimming a front.
* `eq_nil_of_trim`: a trimmed text does not end in blanks.
* `Utf8.decode_front`, `Utf8.encode_injective`: reading a front of the bytes of a text.
-/
namespace KernelLink.Text

variable {cs ds : List Char}

/-! ## Trimming -/

/-- Taking blanks off the beginning of a front gives a front. Induction on the front; as soon as one
character stays, all do. -/
theorem trimStart_front (h : cs <+: ds) : trimStart cs <+: trimStart ds := by
  induction cs generalizing ds with
  | nil => exact List.nil_prefix
  | cons c cs ih =>
    obtain ⟨rest, rfl⟩ := h
    unfold trimStart at ih ⊢
    by_cases hc : isBlank c = true
    · rw [List.cons_append, List.dropWhile_cons_of_pos hc, List.dropWhile_cons_of_pos hc]
      exact ih (List.prefix_append cs rest)
    · rw [List.cons_append, List.dropWhile_cons_of_neg hc, List.dropWhile_cons_of_neg hc]
      exact List.prefix_append (c :: cs) rest

/-- Without the blanks at the back a text does not end in blanks. -/
theorem eq_nil_of_trimEnd {front back : List Char} (h : trimEnd cs = front ++ back)
    (hblank : ∀ c ∈ back, isBlank c = true) : back = [] := by
  rcases List.eq_nil_or_concat back with hnil | ⟨back, c, rfl⟩
  · exact hnil
  · have hne : cs.rdropWhile isBlank ≠ [] := by
      rw [show cs.rdropWhile isBlank = _ from h]
      simp
    have hlast : (cs.rdropWhile isBlank).getLast hne = c := by
      simp only [show cs.rdropWhile isBlank = _ from h, List.getLast_append, List.concat_eq_append]
      simp
    have hink := List.rdropWhile_last_not isBlank cs hne
    rw [hlast] at hink
    exact absurd (hblank c (by simp)) hink

/-- So does taking them off the end: what was taken off the front is either taken off the whole as
well, or has something behind it there. -/
theorem trimEnd_front (h : cs <+: ds) : trimEnd cs <+: trimEnd ds := by
  have hfront := List.rdropWhile_prefix isBlank cs
  have hwhole : trimEnd cs <+: ds := hfront.trans h
  have hparts : trimEnd ds ++ ds.rtakeWhile isBlank = ds := List.rdropWhile_append_rtakeWhile
  have htrimmed := List.rdropWhile_prefix isBlank ds
  rcases List.prefix_or_prefix_of_prefix hwhole htrimmed with hin | ⟨more, hmore⟩
  · exact hin
  · -- what stands behind the trimmed text is blank, and the front does not end in blanks
    have hblank : more <+: ds.rtakeWhile isBlank := by
      refine (List.prefix_append_right_inj (trimEnd ds)).mp ?_
      rw [hparts]
      exact hmore ▸ hwhole
    have hnil := eq_nil_of_trimEnd hmore.symm fun c hc => List.mem_rtakeWhile_imp (hblank.subset hc)
    rw [hnil, List.append_nil] at hmore
    exact hmore ▸ List.prefix_rfl

/-- Trimming a front of a text gives a front of the trimmed text. -/
theorem trim_front (h : cs <+: ds) : trim cs <+: trim ds := trimEnd_front (trimStart_front h)

/-- A trimmed text does not end in blanks. -/
theorem eq_nil_of_trim {front back : List Char} (h : trim cs = front ++ back)
    (hblank : ∀ c ∈ back, isBlank c = true) : back = [] := eq_nil_of_trimEnd h hblank

/-! ## Bytes -/

namespace Utf8

theorem encode_injective (h : encode cs = encode ds) : cs = ds := by
  have hread := congrArg decode h
  rw [decode_encode, decode_encode] at hread
  exact String.ofList_injective (Except.ok.inj hread)

/-- Pieces that read as characters are characters, one by one. Induction on the pieces, with what
was read before left open. -/
theorem pieces_of_charsOf {index : Nat} {read : List Char} {ps : List Piece}
    (h : charsOf index read ps = .ok cs) :
    ∃ ds, ps = ds.map Piece.char ∧ cs = read.reverse ++ ds := by
  induction ps generalizing index read with
  | nil =>
    obtain rfl := Except.ok.inj h
    exact ⟨[], rfl, (List.append_nil _).symm⟩
  | cons p ps ih =>
    cases p with
    | char c =>
      obtain ⟨ds, rfl, rfl⟩ := ih h
      exact ⟨c :: ds, rfl, by rw [List.reverse_cons, List.append_assoc]; rfl⟩
    | broken size => exact nomatch h
    | unfinished size => exact nomatch h

/-- Bytes that read as text are made of its characters, since strict reading stops at any other
piece. -/
theorem pieces_of_decode {bs : List UInt8} {s : String} (h : decode bs = .ok s) :
    pieces bs = s.toList.map Piece.char := by
  unfold decode at h
  rcases hc : charsOf 0 [] (pieces bs) with f | cs
  · rw [hc] at h
    exact nomatch h
  · rw [hc] at h
    obtain rfl := Except.ok.inj h
    obtain ⟨ds, hds, rfl⟩ := pieces_of_charsOf hc
    rw [hds, String.toList_ofList]

/-- A front of the bytes of a text that reads as text reads as a front of it. -/
theorem decode_front {bs : List UInt8} {s : String} (hb : bs <+: encode cs)
    (h : decode bs = .ok s) : s.toList <+: cs := by
  obtain ⟨rest, hrest⟩ := hb
  have hchars := pieces_of_decode h
  have hall : ∀ piece ∈ pieces bs, ∃ c, piece = .char c := by
    intro piece hp
    rw [hchars] at hp
    obtain ⟨c, -, rfl⟩ := List.mem_map.mp hp
    exact ⟨c, rfl⟩
  have hpieces := pieces_encode cs
  rw [← hrest, pieces_append rest hall, hchars] at hpieces
  have hchar : Function.Injective Piece.char := fun _ _ e => Piece.char.inj e
  exact (List.prefix_map_iff_of_injective hchar).mp ⟨_, hpieces⟩

end Utf8
end KernelLink.Text
