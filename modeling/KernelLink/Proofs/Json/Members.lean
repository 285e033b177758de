import KernelLink.Json.Basic
import Mathlib.Data.List.Induction
/-!
# Members by key

Putting a member into a list of members changes what is found under its key and under no other. So
the normal form of an object in which no key is twice has the members of the object, in normal form.

In any case the keys of the normal form go up, and what stands under a key is the last of what the
object has under it.

Main results:
* `Json.lookup_insertMember`: looking into a list with one more member.
* `Json.member_normal`: looking into the normal form of an object.
* `Json.sorted_sortMembers`, `Json.lookup_sortMembers_last`: sorting members.
-/
namespace KernelLink.Json

/-- A member that was put in is found under its key, and under every other key what was found
before. Induction on the list; the member goes in front of the first greater key. -/
theorem lookup_insertMember (k key : String) (v : Json) (members : List (String × Json)) :
    (insertMember k v members).lookup key = if key = k then some v else members.lookup key := by
  induction members with
  | nil =>
    -- the new member stands before the first that is greater, so whether it is found there is a
    -- matter of the keys alone
    by_cases h : key = k
    · simp [insertMember, h]
    · have hb : (key == k) = false := by simpa using h
      rw [insertMember, List.lookup_cons, hb, if_neg h]
  | cons m ms ih =>
    obtain ⟨k', v'⟩ := m
    unfold insertMember
    by_cases h : key = k
    · subst h
      rw [if_pos rfl] at ih ⊢
      split
      · simp
      split
      · simp
      · next hne =>
        have hb : (key == k') = false := by simpa using hne
        rw [List.lookup_cons, hb]
        exact ih
    · rw [if_neg h] at ih ⊢
      have hb : (key == k) = false := by simpa using h
      split
      · rw [List.lookup_cons, hb]
      split
      · next heq =>
        subst heq
        rw [List.lookup_cons, hb, List.lookup_cons, hb]
      · rw [List.lookup_cons, List.lookup_cons, ih]

/-- Where no key is twice, sorting changes nothing that is found. Induction from the end, where the
last member is put in last. -/
theorem lookup_sortMembers {members : List (String × Json)}
    (h : (members.map Prod.fst).Nodup) (key : String) :
    (sortMembers members).lookup key = members.lookup key := by
  unfold sortMembers
  induction members using List.reverseRecOn with
  | nil => rfl
  | append_singleton ms m ih =>
    obtain ⟨k, v⟩ := m
    rw [List.map_append, List.nodup_append] at h
    obtain ⟨hms, -, hdisjoint⟩ := h
    rw [List.foldl_append, List.foldl_cons, List.foldl_nil, lookup_insertMember, ih hms,
      List.lookup_append]
    by_cases hk : key = k
    · -- no member before has the key
      subst hk
      have hnone : ms.lookup key = none := by
        rw [List.lookup_eq_none_iff]
        intro p hp
        have hne := hdisjoint p.1 (List.mem_map_of_mem hp) key (by simp)
        simpa using Ne.symm hne
      rw [if_pos rfl, hnone]
      simp
    · have hb : (key == k) = false := by simpa using hk
      rw [if_neg hk, List.lookup_cons, hb, List.lookup_nil, Option.or_none]

/-- What is found in normal form is the normal form of what was found. -/
theorem lookup_normalMembers (members : List (String × Json)) (key : String) :
    (normalMembers members).lookup key = (members.lookup key).map normal := by
  induction members with
  | nil => rfl
  | cons m ms ih =>
    obtain ⟨k, v⟩ := m
    rw [normalMembers, List.lookup_cons, List.lookup_cons, ih]
    cases key == k <;> rfl

theorem keys_normalMembers (members : List (String × Json)) :
    (normalMembers members).map Prod.fst = members.map Prod.fst := by
  induction members with
  | nil => rfl
  | cons m ms ih =>
    obtain ⟨k, v⟩ := m
    rw [normalMembers, List.map_cons, List.map_cons, ih]

/-- A member of an object in which no key is twice, after the object was brought into normal
form. -/
theorem member_normal {members : List (String × Json)} (h : (members.map Prod.fst).Nodup)
    (key : String) :
    (Json.obj members).normal.member key = ((members.lookup key).map normal).getD .null := by
  rw [normal, member, lookup_sortMembers (by rw [keys_normalMembers]; exact h),
    lookup_normalMembers]

/-! ## The last of each key -/

/-- The keys go up, so that none is there twice. -/
def Sorted (members : List (String × Json)) : Prop := members.Pairwise fun m n => m.1 < n.1

/-- Whoever is there after a member was put in is that member or was there before. -/
theorem mem_insertMember {k : String} {v : Json} {members : List (String × Json)}
    {m : String × Json} (h : m ∈ insertMember k v members) : m = (k, v) ∨ m ∈ members := by
  induction members with
  | nil => exact Or.inl (List.mem_singleton.mp h)
  | cons n ns ih =>
    obtain ⟨k', v'⟩ := n
    unfold insertMember at h
    split at h
    · exact (List.mem_cons.mp h).imp_right fun h => h
    split at h
    · exact (List.mem_cons.mp h).imp_right (List.mem_cons_of_mem _)
    · rcases List.mem_cons.mp h with rfl | h
      · exact Or.inr List.mem_cons_self
      · exact (ih h).imp_right (List.mem_cons_of_mem _)

/-- Putting a member into sorted ones leaves them sorted: it stands behind all smaller keys and in
front of the first greater one. -/
theorem sorted_insertMember {k : String} {v : Json} {members : List (String × Json)}
    (h : Sorted members) : Sorted (insertMember k v members) := by
  induction members with
  | nil => exact List.pairwise_singleton _ _
  | cons n ns ih =>
    obtain ⟨k', v'⟩ := n
    obtain ⟨hfirst, hrest⟩ := List.pairwise_cons.mp h
    unfold insertMember
    split
    · next hlt =>
      refine List.pairwise_cons.mpr ⟨fun m hm => ?_, h⟩
      rcases List.mem_cons.mp hm with rfl | hm
      · exact hlt
      · exact String.lt_trans hlt (hfirst m hm)
    split
    · next heq =>
      subst heq
      exact List.pairwise_cons.mpr ⟨hfirst, hrest⟩
    · next hge hne =>
      -- what stands behind is the new member or was there before
      refine List.pairwise_cons.mpr ⟨fun m hm => ?_, ih hrest⟩
      rcases mem_insertMember hm with rfl | hm
      · by_contra hnot
        exact hne (String.le_antisymm (String.not_lt.mp hnot) (String.not_lt.mp hge))
      · exact hfirst m hm

/-- So the members that are put in one after the other end up sorted. -/
theorem sorted_sortMembers (members : List (String × Json)) : Sorted (sortMembers members) := by
  unfold sortMembers
  induction members using List.reverseRecOn with
  | nil => exact List.Pairwise.nil
  | append_singleton ms m ih =>
    rw [List.foldl_append]
    exact sorted_insertMember ih

/-- Of two members with one key the later is kept, so what is found after sorting is what is found
first from the end. -/
theorem lookup_sortMembers_last (members : List (String × Json)) (key : String) :
    (sortMembers members).lookup key = members.reverse.lookup key := by
  unfold sortMembers
  induction members using List.reverseRecOn with
  | nil => rfl
  | append_singleton ms m ih =>
    obtain ⟨k, v⟩ := m
    rw [List.foldl_append, List.foldl_cons, List.foldl_nil, lookup_insertMember, ih,
      List.reverse_append, List.reverse_singleton, List.singleton_append, List.lookup_cons]
    by_cases hk : key = k
    · simp [hk]
    · have hb : (key == k) = false := by simpa using hk
      rw [if_neg hk, hb]

/-- The members of a normal form before they are sorted, without the recursion. -/
theorem normalMembers_eq (members : List (String × Json)) :
    normalMembers members = members.map fun m => (m.1, m.2.normal) := by
  induction members with
  | nil => rfl
  | cons m ms ih => rw [normalMembers, ih, List.map_cons]

/-- The normal form of an object has its keys in order and under each key the normal form of the
last value that the object has under it. -/
theorem normal_obj (members : List (String × Json)) :
    ∃ sorted, (Json.obj members).normal = .obj sorted ∧ Sorted sorted ∧
      ∀ key, sorted.lookup key = (members.reverse.lookup key).map normal := by
  refine ⟨_, rfl, sorted_sortMembers _, fun key => ?_⟩
  rw [lookup_sortMembers_last, normalMembers_eq, ← List.map_reverse, ← normalMembers_eq,
    lookup_normalMembers]

end KernelLink.Json
