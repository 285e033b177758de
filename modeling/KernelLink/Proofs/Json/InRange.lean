import KernelLink.Proofs.Json.Doubles
import KernelLink.Proofs.Json.Members
/-!
# Numbers in range

Every number that was read fits a machine word or is a double in range, and every such number can be
read again where it is written. So what was put together from documents that were read is written as
a document.

Main definitions:
* `Number.InRange`, `Json.InRange`: numbers that fit, and documents all of whose numbers do.

Main results:
* `Json.inRange_readValue`: whatever was read has numbers in range.
* `Number.InRange.readable`, `Json.InRange.document`: whatever has is a document when it is written.
-/
namespace KernelLink

open Json (wordLimit Digits Numeral)
open Text.Utf8 (encode)

/-- An integer that fits a machine word, or a double in range. -/
def Number.InRange : Number → Prop
  | .int i => (Number.int i).Whole
  | .float x => x.Finite

namespace Json

/-! ## Numbers that were read -/

variable {negative : Bool} {d : Digits} {v : Number}

/-- A double that was read is finite: rounding gives none that is too large. -/
theorem inRange_double? (h : Numeral.double? negative d = some v) : v.InRange := by
  obtain ⟨x, hx, rfl⟩ := Option.map_eq_some_iff.mp h
  have hfinite := Binary64.finite_ofDecimal hx
  exact ⟨hfinite.mantissa, hfinite.exponent⟩

/-- An integer that was read fits a machine word, since its digits were kept as far as a word holds
them; a negative one that fits no signed word is read as a double. -/
theorem inRange_integer? (hd : d.kept ≤ wordLimit) (h : Numeral.integer? negative d = some v) :
    v.InRange := by
  have h63 : Nat.pow 2 63 = 9223372036854775808 := by decide
  have h64 : Nat.pow 2 64 = 18446744073709551616 := by decide
  have hlimit : wordLimit = 18446744073709551615 := by decide
  unfold Numeral.integer? at h
  split at h
  · exact inRange_double? h
  split at h
  · -- below the least integer the number becomes a double
    split at h
    · obtain rfl := Option.some.inj h
      have hfinite := Binary64.finite_ofNat d.kept
      exact ⟨hfinite.mantissa, hfinite.exponent⟩
    · next hkept =>
      obtain rfl := Option.some.inj h
      exact ⟨by omega, by omega⟩
  · obtain rfl := Option.some.inj h
    exact ⟨by omega, by omega⟩

/-- A number with a fraction or an exponent is read as a double, or as none. -/
theorem inRange_scaled? {e : Exponent} (h : Numeral.scaled? negative d e = some v) : v.InRange := by
  unfold Numeral.scaled? at h
  split at h
  · exact inRange_double? h
  split at h
  · exact nomatch h
  · obtain rfl := Option.some.inj h
    exact ⟨Binary64.finite_zero.mantissa, Binary64.finite_zero.exponent⟩

/-- The value of a number is in range, in each of its three forms: with an exponent, as an integer
and as a double. -/
theorem inRange_value? {n : Numeral} (h : n.value? = some v) : v.InRange := by
  obtain ⟨hkept, -⟩ := joinWhole_bounds (Nat.zero_le _) (encode n.whole)
  unfold Numeral.value? Numeral.valueFrom at h
  split at h
  · exact inRange_scaled? h
  split at h
  · exact inRange_integer? hkept h
  · exact inRange_double? h

/-! ## Documents -/

/-- All numbers of the document are in range. -/
def InRange (v : Json) : Prop := ∀ n ∈ v.numbers, n.InRange

theorem inRange_null : InRange .null := fun _ h => nomatch h

theorem inRange_bool (b : Bool) : InRange (.bool b) := fun _ h => nomatch h

theorem inRange_str (s : String) : InRange (.str s) := fun _ h => nomatch h

theorem inRange_num {n : Number} : InRange (.num n) ↔ n.InRange := by
  unfold InRange
  rw [numbers]
  exact List.forall_mem_singleton

/-- A list is in range if all its items are, since its numbers are those of the items. -/
theorem inRange_arr {items : List Json} : InRange (.arr items) ↔ ∀ v ∈ items, v.InRange := by
  show (∀ n ∈ numbersItems items, n.InRange) ↔ _
  induction items with
  | nil => simp [numbersItems]
  | cons v vs ih =>
    rw [numbersItems, List.forall_mem_append, ih, List.forall_mem_cons]
    rfl

/-- An object is in range if all its members are, whatever their keys. -/
theorem inRange_obj {members : List (String × Json)} :
    InRange (.obj members) ↔ ∀ m ∈ members, m.2.InRange := by
  show (∀ n ∈ numbersMembers members, n.InRange) ↔ _
  induction members with
  | nil => simp [numbersMembers]
  | cons m ms ih =>
    rw [numbersMembers, List.forall_mem_append, ih, List.forall_mem_cons]
    rfl

/-! ## Documents that were read -/

mutual
/-- The numbers of what is spelled are in range. Along the spelling, since each rule spells at most
one number or is made of smaller spellings. -/
theorem Spells.inRange : ∀ {s t : List Char} {v : Json}, Spells s v t → v.InRange
  | _, _, _, .null _ => inRange_null
  | _, _, _, .true _ | _, _, _, .false _ => inRange_bool _
  | _, _, _, .num _ hv _ => inRange_num.mpr (inRange_value? hv)
  | _, _, _, .str _ => inRange_str _
  | _, _, _, .noItems _ => inRange_arr.mpr (List.forall_mem_nil _)
  | _, _, _, .arr h => inRange_arr.mpr h.inRange
  | _, _, _, .noMembers _ => inRange_obj.mpr (List.forall_mem_nil _)
  | _, _, _, .obj h => inRange_obj.mpr h.inRange

theorem SpellsSpaced.inRange : ∀ {s t : List Char} {v : Json}, SpellsSpaced s v t → v.InRange
  | _, _, _, .mk _ h _ => h.inRange

/-- Each item that is spelled has its numbers in range; this goes along the spelling, together with
that of values and members. -/
theorem SpellsItems.inRange : ∀ {s t : List Char} {vs : List Json}, SpellsItems s vs t →
    ∀ v ∈ vs, v.InRange
  | _, _, _, .last h => List.forall_mem_singleton.mpr h.inRange
  | _, _, _, .cons h hs => List.forall_mem_cons.mpr ⟨h.inRange, hs.inRange⟩

theorem SpellsMember.inRange : ∀ {s t : List Char} {k : String} {v : Json},
    SpellsMember s k v t → v.InRange
  | _, _, _, _, .mk _ _ _ hv => hv.inRange

theorem SpellsMembers.inRange : ∀ {s t : List Char} {ms : List (String × Json)},
    SpellsMembers s ms t → ∀ m ∈ ms, m.2.InRange
  | _, _, _, .last h => List.forall_mem_singleton.mpr h.inRange
  | _, _, _, .cons h hs => List.forall_mem_cons.mpr ⟨h.inRange, hs.inRange⟩
end

/-- Putting a member into its place adds its numbers and no others, and may drop those of the member
that it replaces. -/
theorem inRange_insertMember {k : String} {v : Json} {ms : List (String × Json)} (hv : v.InRange)
    (h : ∀ m ∈ ms, m.2.InRange) : ∀ m ∈ insertMember k v ms, m.2.InRange := by
  intro m hm
  rcases mem_insertMember hm with rfl | hm
  · exact hv
  · exact h m hm

/-- Sorting members puts in one after the other, so the induction is on the list from its end. -/
theorem inRange_sortMembers {ms : List (String × Json)} (h : ∀ m ∈ ms, m.2.InRange) :
    ∀ m ∈ sortMembers ms, m.2.InRange := by
  unfold sortMembers
  induction ms using List.reverseRecOn with
  | nil => exact List.forall_mem_nil _
  | append_singleton ms m ih =>
    obtain ⟨hms, hm⟩ := List.forall_mem_append.mp h
    rw [List.foldl_append]
    exact inRange_insertMember (hm m List.mem_cons_self) (ih hms)

mutual
/-- The normal form has no other numbers: sorting drops members and changes none. -/
theorem InRange.normal : ∀ {v : Json}, v.InRange → v.normal.InRange
  | .null, h | .bool _, h | .num _, h | .str _, h => by rwa [Json.normal]
  | .arr vs, h => by
    rw [Json.normal, inRange_arr]
    exact inRange_normalItems vs (inRange_arr.mp h)
  | .obj ms, h => by
    rw [Json.normal, inRange_obj]
    exact inRange_sortMembers (inRange_normalMembers ms (inRange_obj.mp h))

/-- The items of a list are brought into normal form one by one. -/
theorem inRange_normalItems : ∀ (vs : List Json), (∀ v ∈ vs, v.InRange) →
    ∀ v ∈ normalItems vs, v.InRange
  | [], _ => by
    rw [normalItems]
    exact List.forall_mem_nil _
  | _ :: vs, h => by
    obtain ⟨hv, hvs⟩ := List.forall_mem_cons.mp h
    rw [normalItems, List.forall_mem_cons]
    exact ⟨hv.normal, inRange_normalItems vs hvs⟩

theorem inRange_normalMembers : ∀ (ms : List (String × Json)), (∀ m ∈ ms, m.2.InRange) →
    ∀ m ∈ normalMembers ms, m.2.InRange
  | [], _ => by
    rw [normalMembers]
    exact List.forall_mem_nil _
  | (_, _) :: ms, h => by
    obtain ⟨hm, hms⟩ := List.forall_mem_cons.mp h
    rw [normalMembers, List.forall_mem_cons]
    exact ⟨InRange.normal hm, inRange_normalMembers ms hms⟩
end

/-- Whatever is read as an untyped value has numbers in range: reading finds a spelling, and the
normal form adds no numbers. -/
theorem inRange_readValue {text : String} {v : Json}
    (h : readValue (Text.Utf8.bytes text) = .ok v) : v.InRange := by
  unfold readValue at h
  rcases hread : read (encode text.toList) with e | w
  · rw [show Text.Utf8.bytes text = encode text.toList from rfl, hread] at h
    exact nomatch h
  · rw [show Text.Utf8.bytes text = encode text.toList from rfl, hread] at h
    obtain rfl := Except.ok.inj h
    exact (SpellsSpaced.inRange (read_iff.mp hread).1).normal

/-! ## Parts of documents -/

theorem inRange_of_lookup {ms : List (String × Json)} (h : ∀ m ∈ ms, m.2.InRange) {k : String}
    {v : Json} (hv : ms.lookup k = some v) : v.InRange := by
  obtain ⟨before, after, rfl, -⟩ := List.lookup_eq_some_iff.mp hv
  exact h (k, v) (List.mem_append_right _ List.mem_cons_self)

/-- A member of a document that is in range is in range, also if it is missing, since what stands
for it then holds no numbers. -/
theorem InRange.member {v : Json} (h : v.InRange) (key : String) : (v.member key).InRange := by
  cases v with
  | obj members =>
    show ((members.lookup key).getD .null).InRange
    cases hlook : members.lookup key with
    | none => exact inRange_null
    | some w => exact inRange_of_lookup (inRange_obj.mp h) hlook
  | null | bool | num | str | arr => exact inRange_null

/-- The first item of a list that is in range is in range. -/
theorem InRange.first? {v w : Json} (h : v.InRange) (hw : v.first? = some w) : w.InRange := by
  unfold Json.first? at hw
  split at hw
  · next items _ =>
    obtain rfl := Option.some.inj hw
    exact inRange_arr.mp h _ List.mem_cons_self
  · exact nomatch hw

end Json

/-! ## Documents that are written -/

/-- A number in range can be read again where it is written: an integer as itself, and a double as
some number. -/
theorem Number.InRange.readable {n : Number} (h : n.InRange) : n.Readable := by
  cases n with
  | int i =>
    have hwhole : (Number.int i).Whole := h
    exact hwhole.readsBack.readable
  | float x =>
    obtain ⟨v, hv⟩ := Binary64.value?_numeral h
    have hspelled := Json.Spells.num (Binary64.wellFormed_numeral x) hv []
    rw [Binary64.chars_numeral, List.append_nil] at hspelled
    exact ⟨v, Json.read_iff.mpr ⟨.of_spells hspelled, Nat.zero_le _⟩⟩

/-- A written document with numbers in range is a document, nested as deep. -/
theorem Json.InRange.document {v : Json} (h : v.InRange) : Document (chars v) v.reread :=
  document_chars_reread fun n hn => (h n hn).readable

end KernelLink
