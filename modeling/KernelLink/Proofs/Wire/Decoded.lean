import KernelLink.Proofs.Json.ReadBack
import KernelLink.Wire.Envelope
/-!
# Written objects as reply lines

A line that is a written object is decoded as that object: trimming takes nothing off it, and it
reads back. It is refused exactly if it is nested too deep.

Main results:
* `Envelope.decodeLine_obj`, `Envelope.decodeLine_tooDeep`: decoding a written object.
* `Reply.ofPayload_got`: the payload of a reply to getting a property.
-/
namespace KernelLink

namespace Json

/-! ## Lines -/

theorem charsMembers_last (ms : List (String × Json)) : ∃ cs, charsMembers ms = cs ++ ['}'] := by
  induction ms with
  | nil => exact ⟨[], by rw [charsMembers]; rfl⟩
  | cons m ms ih =>
    obtain ⟨k, v⟩ := m
    obtain ⟨cs, hcs⟩ := ih
    refine ⟨',' :: (quotedChars k ++ ':' :: (chars v ++ cs)), ?_⟩
    rw [charsMembers, hcs]
    simp

/-- There are no blanks around a written object, since it begins and ends with a brace. -/
theorem trim_chars_obj (members : List (String × Json)) :
    Text.trim (chars (.obj members)) = chars (.obj members) := by
  have hopen : Text.isBlank '{' = false := by decide
  have hclose : Text.isBlank '}' = false := by decide
  have hends : (∃ cs, chars (.obj members) = '{' :: cs) ∧
      ∃ cs, chars (.obj members) = cs ++ ['}'] := by
    cases members with
    | nil =>
      rw [chars]
      exact ⟨⟨['}'], rfl⟩, ['{'], rfl⟩
    | cons m ms =>
      obtain ⟨k, v⟩ := m
      obtain ⟨cs, hcs⟩ := charsMembers_last ms
      rw [chars]
      exact ⟨⟨_, rfl⟩, '{' :: (quotedChars k ++ ':' :: (chars v ++ cs)), by rw [hcs]; simp⟩
  obtain ⟨⟨cs, hfirst⟩, ds, hlast⟩ := hends
  have hstart : Text.trimStart (chars (.obj members)) = chars (.obj members) := by
    unfold Text.trimStart
    rw [hfirst, List.dropWhile_cons_of_neg (by rw [hopen]; exact Bool.false_ne_true)]
  unfold Text.trim
  rw [hstart]
  unfold Text.trimEnd Text.trimStart
  rw [hlast, List.reverse_append, List.reverse_singleton, List.singleton_append,
    List.dropWhile_cons_of_neg (by rw [hclose]; exact Bool.false_ne_true), List.reverse_cons,
    List.reverse_reverse]

end Json

open Json (nestingLimit)

namespace Envelope

/-- A written object with whole numbers is decoded, up to the limit of nesting. -/
theorem decodeLine_obj {members : List (String × Json)} (hw : (Json.obj members).whole = true)
    (hd : (Json.obj members).depth ≤ nestingLimit) :
    decodeLine (Json.obj members).text = .ok (ofJson (.obj members)) := by
  unfold decodeLine Json.text
  rw [String.toList_ofList, Json.trim_chars_obj, Json.read_chars_whole hw hd]
  rfl

/-- Beyond the limit it is no document, whatever the object holds. -/
theorem decodeLine_tooDeep {members : List (String × Json)}
    (hd : nestingLimit < (Json.obj members).depth) :
    ∃ e, decodeLine (Json.obj members).text = .error e := by
  obtain ⟨e, he⟩ := Json.read_chars_tooDeep hd
  refine ⟨e, ?_⟩
  unfold decodeLine Json.text
  rw [String.toList_ofList, Json.trim_chars_obj, he]
  rfl

end Envelope

/-! ## Payloads -/

/-- The payload of a get reply is the value, as long as reading would not change it. -/
theorem Reply.ofPayload_got {v : Json} (h : v.normal = v) :
    Reply.ofPayload .get (.obj [("value", v)]) = .ok (.got v) := by
  have hcheck : Json.checkAny .value v = .ok v := by rw [Json.checkAny, h]
  simp [ofPayload, shapeFor, gotShape, Json.Shape.ofJson, Json.Shape.take, Json.Field.defaulted,
    Json.Shape.complete, hcheck, ofValues, Except.map, bind, Except.bind, pure, Except.pure]

end KernelLink
