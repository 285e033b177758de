import KernelLink.Wire.Request
import KernelLink.Text.Utf8
/-!
# Requests stand on one line

The compact form of a document escapes every control, so nothing that it is made of is a line break.
A request is therefore one line: its only line feed is the one at its end.

Main results:
* `Json.plain_chars`: a written document holds no control character.
* `Text.Utf8.plain_encode`: text without controls has no byte below the blank.
* `Request.bytes_line`, `Request.count_bytes_line`: a request is such bytes and one line feed.
-/
namespace KernelLink

/-! ## Characters that are no controls -/

/-- All characters come after the controls. -/
def Text.Plain (cs : List Char) : Prop := ∀ c ∈ cs, 0x20 ≤ c.toNat

namespace Text

instance (cs : List Char) : Decidable (Plain cs) :=
  List.decidableBAll (fun c : Char => 0x20 ≤ c.toNat) cs

theorem Plain.nil : Plain [] := fun _ h => nomatch h

theorem Plain.cons {c : Char} {cs : List Char} (hc : 0x20 ≤ c.toNat) (h : Plain cs) :
    Plain (c :: cs) := by
  intro d hd
  rcases List.mem_cons.mp hd with rfl | hd
  · exact hc
  · exact h d hd

theorem Plain.append {cs ds : List Char} (hc : Plain cs) (hd : Plain ds) : Plain (cs ++ ds) := by
  intro c h
  rcases List.mem_append.mp h with h | h
  · exact hc c h
  · exact hd c h

theorem Plain.of_subset {cs ds : List Char} (h : Plain ds) (hs : ∀ c ∈ cs, c ∈ ds) : Plain cs :=
  fun c hc => h c (hs c hc)

/-- A character that is no control is none however often it stands there. -/
theorem plain_replicate (n : Nat) {c : Char} (hc : 0x20 ≤ c.toNat) :
    Plain (List.replicate n c) := by
  intro d hd
  rw [List.eq_of_mem_replicate hd]
  exact hc

/-- Decimal digits are no controls, since they stand above the blank. -/
theorem plain_toDigits (n : Nat) : Plain (Nat.toDigits 10 n) := by
  intro c hc
  have h : c.isDigit = true := Nat.isDigit_of_mem_toDigits (by omega) (by omega) hc
  have h48 : (48 : Nat) ≤ c.toNat := by
    simp only [Char.isDigit, Bool.and_eq_true, decide_eq_true_eq] at h
    exact h.1
  omega

end Text

/-! ## Documents -/

open Text (Plain plain_toDigits plain_replicate)

/-- A whole number is written without controls, with or without its sign. -/
theorem plain_toString_int (i : Int) : Plain (toString i).toList := by
  cases i with
  | ofNat n =>
    show Plain (Nat.repr n).toList
    rw [Nat.toList_repr]
    exact plain_toDigits n
  | negSucc n =>
    show Plain ("-" ++ Nat.repr (n + 1)).toList
    rw [String.toList_append, Nat.toList_repr]
    exact Plain.append (Plain.cons (by decide) Plain.nil) (plain_toDigits (n + 1))

namespace Binary64

theorem plain_plain (digits : List Char) (lead : Int) (h : Plain digits) :
    Plain (documentLayout.plain digits lead) := by
  unfold Layout.plain
  cases lead with
  | ofNat k =>
    simp only
    split
    · refine Plain.append (Plain.append h (plain_replicate _ (by decide))) ?_
      show Plain ['.', '0']
      exact Plain.cons (by decide) (Plain.cons (by decide) Plain.nil)
    · refine Plain.append (h.of_subset fun c hc => List.mem_of_mem_take hc) ?_
      exact Plain.cons (by decide) (h.of_subset fun c hc => List.mem_of_mem_drop hc)
  | negSucc k =>
    refine Plain.cons (by decide) (Plain.cons (by decide) ?_)
    exact Plain.append (plain_replicate _ (by decide)) h

/-- Scientific notation adds a point, the mark of the exponent and the exponent itself. -/
theorem plain_scientific (digits : List Char) (lead : Int) (h : Plain digits) :
    Plain (documentLayout.scientific digits lead) := by
  have hmark : Plain
      (if lead < 0 then documentLayout.fallingMark else documentLayout.risingMark).toList := by
    split
    · exact Plain.cons (by decide) (Plain.cons (by decide) Plain.nil)
    · exact Plain.cons (by decide) (Plain.cons (by decide) Plain.nil)
  unfold Layout.scientific
  refine Plain.append (Plain.append ?_ hmark) (plain_toDigits _)
  match digits, h with
  | [], h => exact h
  | [d], h => exact h
  | d :: e :: rest, h =>
    refine Plain.cons (h d List.mem_cons_self) (Plain.cons (by decide) ?_)
    exact h.of_subset fun c hc => List.mem_cons_of_mem d hc

theorem plain_text (x : Binary64) : Plain x.text.toList := by
  unfold text
  rw [String.toList_ofList]
  refine Plain.append ?_ ?_
  · split
    · exact Plain.cons (by decide) Plain.nil
    · exact Plain.nil
  · unfold Layout.magnitude
    simp only
    split
    · exact plain_plain _ _ (plain_toDigits _)
    · exact plain_scientific _ _ (plain_toDigits _)

end Binary64

theorem Number.plain_text (n : Number) : Plain n.text.toList := by
  cases n with
  | int i => exact plain_toString_int i
  | float x => exact x.plain_text

namespace Json

/-- Below thirty-two, the digit in base sixteen of a quotient or a remainder by sixteen. -/
theorem hexDigit_plain : ∀ n < 16, 0x20 ≤ (hexDigit n).toNat := by decide

/-- A control is written as an escape, which holds none; every other character is itself or an
escape. -/
theorem plain_escapedChar (c : Char) : Plain (escapedChar c) := by
  unfold escapedChar
  split
  case h_8 =>
    split
    next hc =>
      refine Plain.cons (by decide) (Plain.cons (by decide) (Plain.cons (by decide)
        (Plain.cons (by decide) (Plain.cons ?_ (Plain.cons ?_ Plain.nil)))))
      · exact hexDigit_plain _ (by omega)
      · exact hexDigit_plain _ (Nat.mod_lt _ (by omega))
    next hc => exact Plain.cons (by omega) Plain.nil
  all_goals exact Plain.cons (by decide) (Plain.cons (by decide) Plain.nil)

/-- So a text between its quotes holds no control, whatever the text is. -/
theorem plain_quotedChars (s : String) : Plain (quotedChars s) := by
  refine Plain.cons (by decide) (Plain.append ?_ (Plain.cons (by decide) Plain.nil))
  intro c hc
  obtain ⟨d, -, hd⟩ := List.mem_flatMap.mp hc
  exact plain_escapedChar d c hd

mutual
/-- A written document holds no control character, and so no line break. -/
theorem plain_chars : ∀ v : Json, Plain (chars v)
  | .null => by unfold chars; decide
  | .bool true => by unfold chars; decide
  | .bool false => by unfold chars; decide
  | .num n => by unfold chars; exact n.plain_text
  | .str s => by unfold chars; exact plain_quotedChars s
  | .arr [] => by unfold chars; decide
  | .arr (v :: vs) => by
    unfold chars
    exact Plain.cons (by decide) (Plain.append (plain_chars v) (plain_charsItems vs))
  | .obj [] => by unfold chars; decide
  | .obj ((k, v) :: ms) => by
    unfold chars
    refine Plain.cons (by decide) (Plain.append (plain_quotedChars k) (Plain.cons (by decide) ?_))
    exact Plain.append (plain_chars v) (plain_charsMembers ms)

theorem plain_charsItems : ∀ vs : List Json, Plain (charsItems vs)
  | [] => by unfold charsItems; decide
  | v :: vs => by
    unfold charsItems
    exact Plain.cons (by decide) (Plain.append (plain_chars v) (plain_charsItems vs))

theorem plain_charsMembers : ∀ ms : List (String × Json), Plain (charsMembers ms)
  | [] => by unfold charsMembers; decide
  | (k, v) :: ms => by
    unfold charsMembers
    refine Plain.cons (by decide) (Plain.append (plain_quotedChars k) (Plain.cons (by decide) ?_))
    exact Plain.append (plain_chars v) (plain_charsMembers ms)
end

end Json

/-! ## Bytes -/

namespace Text.Utf8

/-- The bytes of a character that is no control are none either. -/
theorem plain_utf8EncodeChar {c : Char} (hc : 0x20 ≤ c.toNat) :
    ∀ b ∈ String.utf8EncodeChar c, 0x20 ≤ b.toNat := by
  have hv : c.val.toNat = c.toNat := rfl
  have hlt : c.val.toNat < 0x110000 := by
    rcases c.valid with h | h
    · omega
    · omega
  intro b hb
  unfold String.utf8EncodeChar at hb
  simp only at hb
  -- one case for each length of the encoding; all bytes of the longer ones have the top bit set
  split at hb
  · simp at hb; subst hb; simp; omega
  · split at hb
    · simp at hb; rcases hb with rfl | rfl <;> simp <;> omega
    · split at hb
      · simp at hb; rcases hb with rfl | rfl | rfl <;> simp <;> omega
      · simp at hb; rcases hb with rfl | rfl | rfl | rfl <;> simp <;> omega

/-- Text without controls has no byte below the blank, since the bytes of the larger characters are
all above. -/
theorem plain_encode {cs : List Char} (h : Plain cs) : ∀ b ∈ encode cs, 0x20 ≤ b.toNat := by
  intro b hb
  obtain ⟨c, hc, hbc⟩ := List.mem_flatMap.mp hb
  exact plain_utf8EncodeChar (h c hc) b hbc

end Text.Utf8

/-- The line that is a document: its text and a line feed. -/
def Json.lineBytes (v : Json) : List UInt8 := Text.Utf8.encode v.chars ++ [10]

/-- A request is its document on a line. -/
theorem Request.bytes_line_eq (r : Request) : Text.Utf8.bytes r.line = r.toJson.lineBytes := by
  unfold Request.line Text.Utf8.bytes Json.text
  rw [String.toList_append, String.toList_ofList]
  unfold Text.Utf8.encode
  rw [List.flatMap_append]
  rfl

/-- A request is bytes that are no controls, and a line feed. -/
theorem Request.bytes_line (r : Request) :
    ∃ body, Text.Utf8.bytes r.line = body ++ [10] ∧ ∀ b ∈ body, 0x20 ≤ b.toNat :=
  ⟨_, r.bytes_line_eq, Text.Utf8.plain_encode r.toJson.plain_chars⟩

/-- A request has exactly one line feed, the one at its end. -/
theorem Request.count_bytes_line (r : Request) : (Text.Utf8.bytes r.line).count 10 = 1 := by
  obtain ⟨body, hline, hbody⟩ := r.bytes_line
  have hnone : body.count 10 = 0 := by
    rw [List.count_eq_zero]
    intro h
    have h10 := hbody 10 h
    have : (10 : UInt8).toNat = 10 := rfl
    omega
  rw [hline, List.count_append, hnone]
  rfl

end KernelLink
