import KernelLink.Mock.Store
import KernelLink.Proofs.Json.Members
import Std.Data.String.ToNat
/-!
# What a kernel holds

A property that was set has the value it was set to, and no change to another object touches it:
neither another assignment, nor a release, nor the creation of an object, whose name is new.

Main definition:
* `Mock.Store.Named`: every object has the name of its number, and no number is still to come.

Main results:
* `Mock.Store.find?_create`, `.find?_assign`, `.find?_release`: objects after a change.
* `Mock.Store.property?_assign`: what was set is there.
* `Mock.Store.property?_assign_other`, `.property?_release_other`, `.property?_create_other`: other
  objects stay as they are.
-/
namespace KernelLink

namespace Mock

/-! ## Names -/

/-- Where a sign stands for the last time two parts meet, so the part behind it is known from the
whole. -/
theorem append_cons_inj_right {a : Char} {xs xs' ys ys' : List Char} (hy : a ∉ ys) (hy' : a ∉ ys')
    (h : xs ++ a :: ys = xs' ++ a :: ys') : ys = ys' := by
  have hspan : ∀ (zs ws : List Char), a ∉ ws →
      (zs ++ a :: ws).reverse.takeWhile (· != a) = ws.reverse := by
    intro zs ws hws
    have hpos : ∀ b ∈ ws.reverse, (b != a) = true := by
      intro b hb
      rw [bne_iff_ne]
      rintro rfl
      exact hws (List.mem_reverse.mp hb)
    rw [List.reverse_append, List.reverse_cons, List.append_assoc,
      List.takeWhile_append_of_pos hpos]
    simp
  exact List.reverse_inj.mp (by rw [← hspan xs ys hy, h, hspan xs' ys' hy'])

namespace Store

/-- A name tells the number of its object, whatever the class is called. -/
theorem nameOf_number {c c' : String} {m n : Nat} (h : nameOf c m = nameOf c' n) : m = n := by
  have hdigits : ∀ k : Nat, '@' ∉ (Nat.repr k).toList := by
    intro k hk
    rw [Nat.toList_repr] at hk
    have hdigit := Nat.isDigit_of_mem_toDigits (by omega) (by omega) hk
    exact absurd hdigit (by decide)
  have hlist : ∀ (c : String) (k : Nat), (nameOf c k).toList =
      c.toList ++ '@' :: (Nat.repr (firstNumber + k)).toList := by
    intro c k
    have hat : "@".toList = ['@'] := by decide
    have hrepr : toString (firstNumber + k) = Nat.repr (firstNumber + k) := rfl
    rw [nameOf, String.toList_append, String.toList_append, List.append_assoc, hat, hrepr,
      List.singleton_append]
  have hlists := congrArg String.toList h
  rw [hlist, hlist] at hlists
  have hsame := append_cons_inj_right (hdigits (firstNumber + m)) (hdigits (firstNumber + n)) hlists
  exact Nat.add_left_cancel (Nat.repr_inj.mp (String.toList_inj.mp hsame))

/-- Every object has the name of its number, and no number is still to come. -/
def Named (s : Store) : Prop :=
  ∀ entry ∈ s.objects, ∃ c n, entry.1 = nameOf c n ∧ n ≤ s.created

theorem named_empty : Named empty := fun _ h => nomatch h

/-- A new object has the name of its number, and numbers only go up. -/
theorem Named.create {s : Store} (h : s.Named) (c : String) (object : Object) :
    (s.create c object).2.Named := by
  intro entry he
  rcases List.mem_cons.mp he with rfl | he
  · exact ⟨c, s.created + 1, rfl, Nat.le_refl _⟩
  · obtain ⟨c', n, hname, hn⟩ := h entry he
    exact ⟨c', n, hname, Nat.le_succ_of_le hn⟩

theorem Named.assign {s : Store} (h : s.Named) (id property : String) (value : Json) :
    (s.assign id property value).Named := by
  intro entry he
  obtain ⟨old, hold, rfl⟩ := List.mem_map.mp he
  obtain ⟨c, n, hname, hn⟩ := h old hold
  by_cases hid : old.1 = id
  · exact ⟨c, n, by rw [if_pos hid, ← hid, hname], hn⟩
  · exact ⟨c, n, by rw [if_neg hid, hname], hn⟩

theorem Named.release {s : Store} (h : s.Named) (id : String) : (s.release id).Named :=
  fun entry he => h entry (List.mem_filter.mp he).1

/-! ## The table of objects -/

theorem mem_keys_iff {s : Store} {id : String} :
    id ∈ s.objects.map Prod.fst ↔ (s.find? id).isSome = true := by
  unfold find?
  induction s.objects with
  | nil => simp
  | cons entry rest ih =>
    obtain ⟨k, o⟩ := entry
    rw [List.map_cons, List.mem_cons, List.lookup_cons, ih]
    by_cases hk : id = k
    · simp [hk]
    · have hb : (id == k) = false := by simpa using hk
      simp [hk, hb]

/-- A new object is found under its own name; under every other name what was found before. -/
theorem find?_create (s : Store) (c : String) (object : Object) (id : String) :
    (s.create c object).2.find? id =
      if id = nameOf c (s.created + 1) then some object else s.find? id := by
  unfold find? create
  dsimp only
  rw [List.lookup_cons]
  by_cases hid : id = nameOf c (s.created + 1)
  · simp [hid]
  · have hb : (id == nameOf c (s.created + 1)) = false := by simpa using hid
    rw [hb, if_neg hid]

/-- After setting a property the object is found with it, and every other object as it was.
Induction on the objects, where each name is compared with both. -/
theorem find?_assign (s : Store) (id id' property : String) (value : Json) :
    (s.assign id property value).find? id' =
      (s.find? id').map fun o => if id' = id then Json.insertMember property value o else o := by
  unfold find? assign
  induction s.objects with
  | nil => rfl
  | cons entry rest ih =>
    obtain ⟨k, o⟩ := entry
    dsimp only at ih ⊢
    rw [List.map_cons]
    by_cases hk : k = id
    · subst hk
      rw [if_pos rfl, List.lookup_cons, List.lookup_cons, ih]
      by_cases hid : id' = k
      · simp [hid]
      · have hb : (id' == k) = false := by simpa using hid
        rw [hb]
    · -- another entry stays, and stays in its place
      rw [if_neg hk, List.lookup_cons, List.lookup_cons, ih]
      by_cases hid : id' = k
      · subst hid
        simp [hk]
      · have hb : (id' == k) = false := by simpa using hid
        rw [hb]

theorem find?_release (s : Store) (id id' : String) :
    (s.release id).find? id' = if id' = id then none else s.find? id' := by
  unfold find? release
  induction s.objects with
  | nil => simp
  | cons entry rest ih =>
    obtain ⟨k, o⟩ := entry
    dsimp only at ih ⊢
    by_cases hk : k = id
    · subst hk
      rw [List.filter_cons_of_neg (by simp), ih, List.lookup_cons]
      by_cases hid : id' = k
      · simp [hid]
      · have hb : (id' == k) = false := by simpa using hid
        rw [hb]
    · rw [List.filter_cons_of_pos (by simpa using hk), List.lookup_cons, List.lookup_cons, ih]
      by_cases hid : id' = k
      · subst hid
        simp [hk]
      · have hb : (id' == k) = false := by simpa using hid
        rw [hb]

theorem keys_assign (s : Store) (id property : String) (value : Json) :
    (s.assign id property value).objects.map Prod.fst = s.objects.map Prod.fst := by
  unfold assign
  rw [List.map_map]
  refine List.map_congr_left fun entry _ => ?_
  by_cases hid : entry.1 = id
  · simp [hid]
  · simp [hid]

theorem keys_release (s : Store) (id : String) :
    (s.release id).objects.map Prod.fst = (s.objects.map Prod.fst).filter (· ≠ id) := by
  unfold release
  rw [List.filter_map]
  rfl

/-- Releasing an object that is alive leaves one object less, as no two have the same name. -/
theorem count_release {s : Store} {id : String} (hkeys : (s.objects.map Prod.fst).Nodup)
    (h : (s.find? id).isSome = true) : (s.release id).count + 1 = s.count := by
  have hmem := mem_keys_iff.mpr h
  have herase : (s.release id).objects.map Prod.fst = (s.objects.map Prod.fst).erase id := by
    rw [keys_release, hkeys.erase_eq_filter]
    refine List.filter_congr fun k _ => ?_
    by_cases hk : k = id
    · simp [hk]
    · simp [hk]
  have hlength := congrArg List.length herase
  rw [List.length_map, List.length_erase_of_mem hmem, List.length_map] at hlength
  have hpos := List.length_pos_of_mem hmem
  rw [List.length_map] at hpos
  unfold count
  omega

/-! ## Properties -/

/-- A property of an object that is alive has the value that it was set to. -/
theorem property?_assign {s : Store} {id : String} {o : Object} (h : s.find? id = some o)
    (property : String) (value : Json) :
    (s.assign id property value).property? id property = some value := by
  unfold property?
  rw [find?_assign, h, Option.map_some, if_pos rfl, Option.bind_some, Json.lookup_insertMember,
    if_pos rfl]

/-- Setting a property of an object changes no other, since that is found as it was. -/
theorem property?_assign_other (s : Store) {id id' : String} (h : id' ≠ id)
    (property property' : String) (value : Json) :
    (s.assign id property value).property? id' property' = s.property? id' property' := by
  unfold property?
  rw [find?_assign]
  simp only [if_neg h, Option.map_id']

/-- Releasing an object changes no other, so neither its properties. -/
theorem property?_release_other (s : Store) {id id' : String} (h : id' ≠ id) (property : String) :
    (s.release id).property? id' property = s.property? id' property := by
  unfold property?
  rw [find?_release, if_neg h]

/-- Creating an object changes none that is alive: the new one has a name of its own. -/
theorem property?_create_other {s : Store} (hs : s.Named) (c : String) (object : Object)
    {id property : String} {value : Json} (h : s.property? id property = some value) :
    (s.create c object).2.property? id property = some value := by
  obtain ⟨o, ho, hvalue⟩ := Option.bind_eq_some_iff.mp h
  -- the object is alive, so its number is not the new one
  obtain ⟨entry, hentry, hid⟩ := List.mem_map.mp (mem_keys_iff.mpr (by rw [ho]; rfl))
  obtain ⟨c', n, hname, hn⟩ := hs entry hentry
  have hne : id ≠ nameOf c (s.created + 1) := by
    intro heq
    have := nameOf_number (hname.symm.trans (hid.trans heq))
    omega
  unfold property?
  rw [find?_create, if_neg hne]
  exact h

end Store
end Mock
end KernelLink
