import KernelLink.Json.Shape
import Mathlib.Data.List.Forall2
import Mathlib.Data.List.Nodup
/-!
# Records read back

A record is written with its fields in their order, and each member is taken under the name of its
field. So the values are found again, as long as every field accepts its own value as it is.

Main results:
* `Json.lookup_of_mem`: looking up a member, if no key is there twice.
* `Json.Shape.ofJson_toJson`: the values in a written record.
-/
namespace KernelLink.Json

/-- Looking up a member finds it, if no key is there twice. Induction on the members. -/
theorem lookup_of_mem {members : List (String × Json)} (h : (members.map Prod.fst).Nodup)
    {key : String} {v : Json} (hm : (key, v) ∈ members) : members.lookup key = some v := by
  induction members with
  | nil => exact absurd hm List.not_mem_nil
  | cons m ms ih =>
    obtain ⟨k, u⟩ := m
    rw [List.map_cons, List.nodup_cons] at h
    rcases List.mem_cons.mp hm with heq | hm
    · rw [← heq, List.lookup_cons, beq_self_eq_true]
    · have hne : key ≠ k := by
        intro heq
        exact h.1 (List.mem_map.mpr ⟨(key, v), hm, heq⟩)
      rw [List.lookup_cons, beq_false_of_ne hne]
      exact ih h.2 hm

theorem find?_name {fields : List Field} (h : (fields.map (·.name)).Nodup) {field : Field}
    (hf : field ∈ fields) : fields.find? (·.name == field.name) = some field := by
  induction fields with
  | nil => exact absurd hf List.not_mem_nil
  | cons f fs ih =>
    rw [List.map_cons, List.nodup_cons] at h
    rcases List.mem_cons.mp hf with rfl | hf
    · exact List.find?_cons_of_pos (beq_self_eq_true _)
    · have hne : f.name ≠ field.name := by
        intro heq
        exact h.1 (heq ▸ List.mem_map_of_mem hf)
      rw [List.find?_cons_of_neg (by simpa using hne)]
      exact ih h.2 hf

namespace Shape

variable {shape : Shape} {origin : Origin} {fields : List Field} {vs : List Json}

/-- Each field accepts its value and leaves it as it is. -/
def Accepts (origin : Origin) : List Field → List Json → Prop :=
  List.Forall₂ fun field v => field.check origin v = .ok v

/-- A member that has the name of a field, when there was none before it. -/
theorem take_field {found : List (String × Json)} {field : Field} {v w : Json}
    (h : (shape.fields.map (·.name)).Nodup) (hf : field ∈ shape.fields)
    (hnew : found.lookup field.name = none) (hcheck : field.check origin v = .ok w) :
    shape.take origin found field.name v = .ok ((field.name, w) :: found) := by
  unfold take
  rw [find?_name h hf]
  simp only [hnew, hcheck, Option.isSome_none, Bool.false_eq_true, if_false, Except.map]

/-- Members of different fields are all taken, one after the other, since none was there before. -/
theorem foldlM_take (h : (shape.fields.map (·.name)).Nodup) (hsub : fields ⊆ shape.fields)
    (hnodup : (fields.map (·.name)).Nodup) (hvs : Accepts origin fields vs)
    {found : List (String × Json)} (hnew : ∀ field ∈ fields, found.lookup field.name = none) :
    ((fields.map (·.name)).zip vs).foldlM (fun found m => shape.take origin found m.1 m.2) found =
      .ok (((fields.map (·.name)).zip vs).reverse ++ found) := by
  induction hvs generalizing found with
  | nil => rfl
  | @cons field v fs vs hcheck _ ih =>
    rw [List.map_cons, List.nodup_cons] at hnodup
    have htake := take_field h (hsub List.mem_cons_self) (hnew _ List.mem_cons_self) hcheck
    have hrest : ∀ g ∈ fs, ((field.name, v) :: found).lookup g.name = none := by
      intro g hg
      have hne : g.name ≠ field.name := by
        intro heq
        exact hnodup.1 (heq ▸ List.mem_map_of_mem hg)
      rw [List.lookup_cons, beq_false_of_ne hne]
      exact hnew g (List.mem_cons_of_mem _ hg)
    have hsub' : fs ⊆ shape.fields := fun g hg => hsub (List.mem_cons_of_mem _ hg)
    rw [List.map_cons, List.zip_cons_cons, List.foldlM_cons, htake]
    show List.foldlM _ _ _ = _
    rw [ih hsub' hnodup.2 hrest, List.reverse_cons, List.append_assoc]
    rfl

theorem complete_of_lookup {found : List (String × Json)}
    (h : List.Forall₂ (fun field v => found.lookup field.name = some v) fields vs) :
    complete found fields = .ok vs := by
  induction h with
  | nil => rfl
  | cons hv _ ih =>
    unfold complete
    rw [hv, ih]
    rfl

/-- The values of a written record, if its fields have different names. -/
theorem ofJson_toJson (h : (shape.fields.map (·.name)).Nodup)
    (hvs : Accepts origin shape.fields vs) :
    shape.ofJson origin (shape.toJson vs) = .ok vs := by
  have hnew : ∀ field ∈ shape.fields, ([] : List (String × Json)).lookup field.name = none :=
    fun _ _ => rfl
  have hfold := foldlM_take h (List.Subset.refl _) h hvs hnew
  obtain ⟨hlength, -⟩ := List.forall₂_iff_zip.mp hvs
  -- what was found has the keys in reverse, still each of them once
  have hkeys : (((shape.fields.map (·.name)).zip vs).reverse.map Prod.fst).Nodup := by
    have hle : (shape.fields.map (·.name)).length ≤ vs.length := by
      rw [List.length_map]
      exact Nat.le_of_eq hlength
    rw [List.map_reverse, List.nodup_reverse, List.map_fst_zip hle]
    exact h
  unfold ofJson toJson
  simp only [hfold, List.append_nil]
  refine complete_of_lookup (List.forall₂_iff_zip.mpr ⟨hlength, ?_⟩)
  intro field v hmem
  refine lookup_of_mem hkeys (List.mem_reverse.mpr ?_)
  rw [List.zip_map_left]
  exact List.mem_map_of_mem hmem

end Shape
end KernelLink.Json
