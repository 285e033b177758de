import KernelLink.Proofs.Json.Reading
import KernelLink.Proofs.Text.Fronts
/-!
# An object is no front of an object

An object ends with the brace that closes it, wherever that is found: a brace in a text, behind an
escape or in a nested value does not count. So of all fronts of a document that is an object only
those are documents that hold all of it but blanks behind it.

Main results:
* `Spells.unique`: at the front of a text stands at most one object.
* `Document.front`: a front of an object that is a document.
-/
namespace KernelLink.Json

open Text.Utf8 (encode encode_injective)

variable {s t : List Char} {v : Json} {ms : List (String × Json)}

/-! ## Blanks -/

/-- A text is nothing but blanks if each of its characters is one. -/
theorem blanks_nil_iff : Blanks s [] ↔ ∀ c ∈ s, IsGap c := by
  constructor
  · intro h
    generalize ht : ([] : List Char) = t at h
    induction h with
    | none t => exact fun c hc => absurd (ht ▸ hc) List.not_mem_nil
    | one hgap h ih =>
      intro c hc
      rcases List.mem_cons.mp hc with rfl | hc
      · exact hgap
      · exact ih ht c hc
  · intro h
    induction s with
    | nil => exact .none []
    | cons c s ih =>
      exact .one (h c List.mem_cons_self) (ih fun d hd => h d (List.mem_cons_of_mem c hd))

/-- The blanks between tokens are blanks of the larger class, so trimming a text takes them off as
well. -/
theorem IsGap.isBlank {c : Char} (h : IsGap c) : Text.isBlank c = true := by
  rcases h with rfl | rfl | rfl | rfl <;> decide

/-! ## Objects -/

theorem Spells.brace (h : Spells s (.obj ms) t) : ∃ r, s = '{' :: r := by
  cases h with
  | noMembers h => exact ⟨_, rfl⟩
  | obj h => exact ⟨_, rfl⟩

theorem Numeral.WellFormed.ne_brace {n : Numeral} (hn : n.WellFormed) :
    n.chars ++ t ≠ '{' :: s := by
  intro h
  unfold Numeral.chars at h
  cases hneg : n.negative with
  | true =>
    rw [hneg] at h
    exact absurd (List.cons.inj h).1 (by decide)
  | false =>
    obtain ⟨c, cs, hwhole⟩ := List.exists_cons_of_ne_nil hn.nonempty
    rw [hneg, hwhole] at h
    have hdigit := hn.whole c (hwhole ▸ List.mem_cons_self)
    rw [(List.cons.inj h).1] at hdigit
    exact absurd hdigit (by decide)

/-- What begins with a brace is an object, since no other kind of value begins with one. -/
theorem Spells.obj_of_brace (h : Spells ('{' :: s) v t) : ∃ ms, v = .obj ms := by
  generalize hs : '{' :: s = cs at h
  cases h with
  | noMembers h => exact ⟨_, rfl⟩
  | obj h => exact ⟨_, rfl⟩
  | str h =>
    cases h with
    | quoted => exact absurd (List.cons.inj hs).1 (by decide)
  | num hn => exact absurd hs.symm hn.ne_brace
  | _ => exact absurd (List.cons.inj hs).1 (by decide)

/-- An object is spelled in one way, and it ends in one place: a reader that has enough fuel finds
both. -/
theorem Spells.unique {u : List Char} (h : Spells s (.obj ms) t) (h' : Spells s v u) :
    v = .obj ms ∧ u = t := by
  obtain ⟨r, rfl⟩ := h.brace
  obtain ⟨ns, rfl⟩ := h'.obj_of_brace
  have hread := h.reads (max (Json.obj ms).depth (Json.obj ns).depth) (Nat.le_max_left _ _)
    (Nat.le_refl _) (by simp)
  have hread' := h'.reads (max (Json.obj ms).depth (Json.obj ns).depth) (Nat.le_max_right _ _)
    (Nat.le_refl _) (by simp)
  obtain ⟨hv, hu⟩ := Prod.mk.inj (Except.ok.inj (hread'.symm.trans hread))
  exact ⟨hv, encode_injective hu⟩

/-- A front of an object that is a document is all of the object, and what is cut off are blanks. -/
theorem Document.front {front back : List Char} (h : Document (front ++ back) (.obj ms))
    (h' : Document front v) : v = .obj ms ∧ Blanks back [] := by
  obtain @⟨_, s₁, s₂, _, _, hfront, hv, hback⟩ := h
  obtain @⟨_, t₁, t₂, _, _, hfront', hv', -⟩ := h'
  -- both values begin behind the same blanks
  have hstart : s₁ = t₁ ++ back := by
    refine encode_injective ?_
    rw [← hfront.skipSpace_starts hv.starts,
      (hfront'.append back).skipSpace_starts (hv'.append back).starts]
  rw [hstart] at hv
  obtain ⟨hsame, hends⟩ := hv.unique (hv'.append back)
  refine ⟨hsame, blanks_nil_iff.mpr fun c hc => ?_⟩
  rw [← hends] at hback
  exact blanks_nil_iff.mp hback c (List.mem_append_right t₂ hc)

end KernelLink.Json
