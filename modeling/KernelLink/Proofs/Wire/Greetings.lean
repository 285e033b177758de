import KernelLink.Proofs.Wire.Envelopes
import KernelLink.Wire.Greeting
/-!
# What a greeting is

A payload is a greeting record if it is an object with exactly one member `hello`, a text, whatever
else it holds, or a list of just that text. The greeting has a version if something stands behind
its last `@` that is not blank.

Main definitions:
* `Greeting.Around`: a greeting record.
* `Greeting.HasVersion`: a greeting with its version.

Main results:
* `Json.Shape.ofJson_obj_iff`: an object as a record of one field.
* `Greeting.ofPayload_iff`: when a payload is read as a greeting record.
* `Greeting.version_iff`, `Greeting.version_error_iff`: when a greeting has a version.
-/
namespace KernelLink

open Envelope (Only Without)

/-! ## Members by key -/

namespace Envelope

/-- No member has a key if the first has not and the others have not. -/
theorem without_cons {key : String} {m : String × Json} {ms : List (String × Json)} :
    Without key (m :: ms) ↔ m.1 ≠ key ∧ Without key ms := List.forall_mem_cons

/-- If the first member has a key, it is the only one exactly if no other has. -/
theorem only_cons_self {key : String} {u v : Json} {ms : List (String × Json)} :
    Only key v ((key, u) :: ms) ↔ u = v ∧ Without key ms := by
  rw [← valuesOf_eq_singleton, valuesOf_cons_self, List.cons.injEq, valuesOf_eq_nil]

theorem only_cons_other {key : String} {v : Json} {m : String × Json} {ms : List (String × Json)}
    (h : m.1 ≠ key) : Only key v (m :: ms) ↔ Only key v ms := by
  have hskip : valuesOf key (m :: ms) = valuesOf key ms := by
    unfold valuesOf
    rw [List.filter_cons_of_neg (by simpa using h)]
  rw [← valuesOf_eq_singleton, hskip, valuesOf_eq_singleton]

end Envelope

/-! ## Records of one field -/

namespace Json.Shape

variable {shape : Shape} {origin : Origin} {field : Field} {members : List (String × Json)}
  {found : List (String × Json)}

/-- A member of another name is passed over, which leaves what was found as it is. -/
theorem take_other (hone : shape.fields = [field]) {m : String × Json} (h : m.1 ≠ field.name) :
    shape.take origin found m.1 m.2 = .ok found := by
  have hnone : shape.fields.find? (·.name == m.1) = none := by
    rw [hone, List.find?_cons_of_neg (by simpa using Ne.symm h), List.find?_nil]
  unfold take
  rw [hnone]

/-- A member of the name is taken if there was none before it and the field accepts its value. -/
theorem take_self (hone : shape.fields = [field]) (v : Json) :
    shape.take origin found field.name v =
      if (found.lookup field.name).isSome then .error (.duplicateField field.name)
      else (field.check origin v).map fun w => (field.name, w) :: found := by
  have hsome : shape.fields.find? (·.name == field.name) = some field := by
    rw [hone]
    exact List.find?_cons_of_pos (beq_self_eq_true field.name)
  unfold take
  rw [hsome]

/-- Once a member of the name was found, there may be no other. -/
theorem foldlM_found (hone : shape.fields = [field]) {w : Json} :
    members.foldlM (fun found m => shape.take origin found m.1 m.2) [(field.name, w)] = .ok found ↔
      Without field.name members ∧ found = [(field.name, w)] := by
  induction members with
  | nil =>
    rw [List.foldlM_nil, and_iff_right (Envelope.without_nil field.name)]
    exact ⟨fun h => (Except.ok.inj h).symm, fun h => congrArg Except.ok h.symm⟩
  | cons m ms ih =>
    rw [List.foldlM_cons, Envelope.without_cons]
    by_cases h : m.1 = field.name
    · rw [h, take_self hone, if_pos (by simp)]
      exact ⟨fun hok => (nomatch hok), fun hw => absurd rfl hw.1.1⟩
    · rw [take_other hone h, and_iff_right h]
      exact ih

/-- What is found in an object: nothing, or the value of the one member that has the name. -/
theorem foldlM_iff (hone : shape.fields = [field]) :
    members.foldlM (fun found m => shape.take origin found m.1 m.2) [] = .ok found ↔
      (Without field.name members ∧ found = []) ∨
      ∃ v w, Only field.name v members ∧ field.check origin v = .ok w ∧
        found = [(field.name, w)] := by
  induction members with
  | nil =>
    rw [List.foldlM_nil]
    constructor
    · intro h
      exact Or.inl ⟨Envelope.without_nil _, (Except.ok.inj h).symm⟩
    · rintro (⟨-, rfl⟩ | ⟨v, w, ⟨before, after, hnil, -⟩, -⟩)
      · rfl
      · exact absurd hnil.symm (List.append_ne_nil_of_right_ne_nil _ (List.cons_ne_nil _ _))
  | cons m ms ih =>
    obtain ⟨key, u⟩ := m
    rw [List.foldlM_cons]
    by_cases h : key = field.name
    · -- the first of that name is taken, so there may be no other behind it
      subst h
      rw [take_self hone, if_neg (by simp)]
      simp only [Envelope.without_cons, Envelope.only_cons_self]
      cases hcheck : field.check origin u with
      | error e =>
        constructor
        · exact fun hok => nomatch hok
        · rintro (⟨⟨hne, -⟩, -⟩ | ⟨v, w, ⟨rfl, -⟩, hv, -⟩)
          · exact absurd rfl hne
          · exact nomatch hcheck.symm.trans hv
      | ok w =>
        refine Iff.trans (foldlM_found hone)
          ⟨fun hw => Or.inr ⟨u, w, ⟨rfl, hw.1⟩, hcheck, hw.2⟩, ?_⟩
        rintro (⟨⟨hne, -⟩, -⟩ | ⟨v, w', ⟨rfl, hwithout⟩, hv, hfound⟩)
        · exact absurd rfl hne
        · obtain rfl := Except.ok.inj (hcheck.symm.trans hv)
          exact ⟨hwithout, hfound⟩
    · rw [take_other hone h]
      simp only [Envelope.without_cons, Envelope.only_cons_other (m := (key, u)) h]
      rw [and_iff_right h]
      exact ih

/-- An object is a record of one field that has to be there exactly if one member has its name, and
the field accepts the value of that. -/
theorem ofJson_obj_iff (hone : shape.fields = [field]) (habsent : field.absent = none)
    {vs : List Json} :
    shape.ofJson origin (.obj members) = .ok vs ↔
      ∃ v w, Only field.name v members ∧ field.check origin v = .ok w ∧ vs = [w] := by
  simp only [ofJson]
  have hiff : ∀ found, members.foldlM (fun found m => shape.take origin found m.1 m.2) [] =
      .ok found ↔ _ := fun found => foldlM_iff hone
  cases hfold : members.foldlM (fun found m => shape.take origin found m.1 m.2) [] with
  | error e =>
    constructor
    · intro hok
      cases hok
    · rintro ⟨v, w, honly, hcheck, -⟩
      have hok := (hiff _).mpr (Or.inr ⟨v, w, honly, hcheck, rfl⟩)
      rw [hfold] at hok
      cases hok
  | ok found =>
    show complete found shape.fields = .ok vs ↔ _
    rw [hone]
    -- nothing was found, and the field is missing, or it was found once
    rcases (hiff found).mp hfold with ⟨hwithout, rfl⟩ | ⟨v, w, honly, hcheck, rfl⟩
    · have hmissing : complete [] [field] = .error (.missingField field.name) := by
        unfold complete
        rw [habsent]
        rfl
      rw [hmissing]
      constructor
      · intro hok
        cases hok
      · rintro ⟨v, w, ⟨before, after, rfl, -, -⟩, -⟩
        exact absurd rfl (hwithout (field.name, v) (List.mem_append_right _ List.mem_cons_self))
    · have hfound : complete [(field.name, w)] [field] = .ok [w] := by
        unfold complete
        rw [List.lookup_cons, beq_self_eq_true]
        rfl
      rw [hfound]
      constructor
      · intro h
        exact ⟨v, w, honly, hcheck, (Except.ok.inj h).symm⟩
      · rintro ⟨v', w', honly', hcheck', rfl⟩
        obtain rfl := honly.unique honly'
        rw [Except.ok.inj (hcheck.symm.trans hcheck')]

end Json.Shape

namespace Greeting

open Json (checkText)

variable {greeting hello version : String} {payload : Json}

/-! ## The record around a greeting -/

/-- The payload is a greeting record around `hello`. -/
inductive Around (hello : String) : Json → Prop where
  /-- An object with exactly one member `hello`, whatever else it holds. -/
  | member {members : List (String × Json)} (only : Only "hello" (.str hello) members) :
      Around hello (.obj members)
  /-- A list of nothing but the text. -/
  | item : Around hello (.arr [.str hello])

/-- A field for a text accepts texts and nothing else, as they are. -/
theorem checkText_iff (origin : Json.Origin) {v w : Json} :
    checkText origin v = .ok w ↔ ∃ s, v = .str s ∧ w = .str s := by
  cases v with
  | str s =>
    constructor
    · intro h
      exact ⟨s, rfl, (Except.ok.inj h).symm⟩
    · rintro ⟨s', hs, rfl⟩
      exact congrArg Except.ok hs
  | _ =>
    refine ⟨fun h => (nomatch h), ?_⟩
    rintro ⟨s, hs, -⟩
    exact nomatch hs

/-- A list is a record of one text only if it holds nothing else. -/
theorem ofItems_iff {items vs : List Json} :
    shape.ofItems .value 0 shape.fields items = .ok vs ↔ ∃ s, items = [.str s] ∧ vs = [.str s] := by
  constructor
  · intro h
    match items with
    | [] => exact nomatch h
    | [v] =>
      cases v with
      | str s => exact ⟨s, rfl, (Except.ok.inj h).symm⟩
      | _ => exact nomatch h
    | v :: u :: rest => cases v <;> exact nomatch h
  · rintro ⟨s, rfl, rfl⟩
    rfl

/-- A payload is read as a greeting record exactly if it is one. -/
theorem ofPayload_iff : ofPayload payload = .ok hello ↔ Around hello payload := by
  -- the record has no other form than one text
  have hread : ofPayload payload = .ok hello ↔ shape.ofJson .value payload = .ok [.str hello] := by
    unfold ofPayload
    split
    · next m hm =>
      rw [hm]
      exact ⟨fun h => (nomatch h), fun h => (nomatch h)⟩
    · next s hs =>
      rw [hs]
      simp
    · next vs hother hvs =>
      rw [hvs]
      exact ⟨fun h => (nomatch h), fun h => (hother hello (Except.ok.inj h)).elim⟩
  rw [hread]
  cases payload with
  | obj members =>
    rw [Json.Shape.ofJson_obj_iff rfl rfl]
    constructor
    · rintro ⟨v, w, honly, hcheck, hw⟩
      obtain ⟨s, rfl, rfl⟩ := (checkText_iff .value).mp hcheck
      obtain rfl := Json.str.inj (List.cons.inj hw).1
      exact .member honly
    · intro h
      cases h with
      | member only => exact ⟨_, .str hello, only, rfl, rfl⟩
  | arr items =>
    show shape.ofItems .value 0 shape.fields items = .ok [.str hello] ↔ _
    rw [ofItems_iff]
    constructor
    · rintro ⟨s, rfl, hs⟩
      obtain rfl := Json.str.inj (List.cons.inj hs).1
      exact .item
    · intro h
      cases h with
      | item => exact ⟨hello, rfl, rfl⟩
  | _ => exact ⟨fun h => (nomatch h), fun h => (nomatch h)⟩

/-! ## The version in a greeting -/

/-- What stands behind the last `@` of the greeting is the version, but for blanks around it, and is
not blank. -/
def HasVersion (greeting version : String) : Prop :=
  ∃ front tail, greeting.toList = front ++ '@' :: tail ∧ '@' ∉ tail ∧
    Text.trim tail ≠ [] ∧ version = String.ofList (Text.trim tail)

/-- The tail of a greeting is what stands behind its last `@`. Induction on the characters, where an
`@` that is not the last is passed over. -/
theorem tail?_iff {cs tail : List Char} :
    tail? cs = some tail ↔ ∃ front, cs = front ++ '@' :: tail ∧ '@' ∉ tail := by
  unfold tail?
  constructor
  · intro h
    split at h
    · next hmem =>
      -- read from the back, the text begins with the tail, and then comes the last `@`
      have hsplit := List.takeWhile_append_dropWhile (p := fun c => decide (c ≠ '@'))
        (l := cs.reverse)
      rcases hrest : cs.reverse.dropWhile (fun c => decide (c ≠ '@')) with _ | ⟨c, front⟩
      · have hall := List.dropWhile_eq_nil_iff.mp hrest '@' (by simpa using hmem)
        simp at hall
      · have hc := List.head?_dropWhile_not (fun c => decide (c ≠ '@')) cs.reverse
        rw [hrest] at hc hsplit
        obtain rfl : c = '@' := by simpa using hc
        obtain rfl := Option.some.inj h
        refine ⟨front.reverse, ?_, fun hm => ?_⟩
        · have hback := congrArg List.reverse hsplit
          rw [List.reverse_reverse, List.reverse_append, List.reverse_cons,
            List.append_assoc, List.singleton_append] at hback
          exact hback.symm
        · have hpass := List.mem_takeWhile_imp (List.mem_reverse.mp hm)
          simp at hpass
    · exact nomatch h
  · rintro ⟨front, rfl, hnone⟩
    -- from the back, nothing stops at the tail
    have hpass : ∀ c ∈ tail.reverse, decide (c ≠ '@') = true := by
      intro c hc
      rw [decide_eq_true_iff]
      rintro rfl
      exact hnone (List.mem_reverse.mp hc)
    rw [if_pos (by simp), List.reverse_append, List.reverse_cons, List.append_assoc,
      List.takeWhile_append_of_pos hpass]
    simp

/-- So the version is found exactly if the greeting has it: the tail without the blanks around it,
if anything is left. -/
theorem version?_iff : version? greeting = some version ↔ HasVersion greeting version := by
  unfold version?
  constructor
  · intro h
    split at h
    · exact nomatch h
    · next tail htail =>
      obtain ⟨front, hsplit, hnone⟩ := tail?_iff.mp htail
      dsimp only at h
      split at h
      · exact nomatch h
      · next hne =>
        exact ⟨front, tail, hsplit, hnone, by simpa using hne, (Option.some.inj h).symm⟩
  · rintro ⟨front, tail, hsplit, hnone, hne, rfl⟩
    rw [tail?_iff.mpr ⟨front, hsplit, hnone⟩]
    exact if_neg (by simpa using hne)

/-- The version of a greeting that has one. -/
theorem version_iff : Greeting.version greeting = .ok version ↔ HasVersion greeting version := by
  rw [← version?_iff]
  unfold Greeting.version
  cases version? greeting <;> simp

/-- The only error is that of a greeting without a version. -/
theorem version_error_iff {e : LinkError} :
    Greeting.version greeting = .error e ↔
      e = .versionParse greeting ∧ ∀ v, ¬ HasVersion greeting v := by
  cases h : Greeting.version greeting with
  | ok v =>
    exact ⟨fun he => (nomatch he), fun he => absurd (version_iff.mp h) (he.2 v)⟩
  | error e' =>
    have he' : .versionParse greeting = e' := by
      unfold Greeting.version at h
      split at h
      · exact nomatch h
      · exact Except.error.inj h
    rw [← he', Except.error.injEq, eq_comm]
    refine (and_iff_left fun v hv => ?_).symm
    exact nomatch h.symm.trans (version_iff.mpr hv)

end Greeting
end KernelLink
