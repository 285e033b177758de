import KernelLink.Proofs.Json.Reading
/-!
# What is written is spelled

The printer writes a spelling of the document that it is given, but for its numbers: what is written
for a number may be read as another one. An integer that fits a machine word is read back. A double
may not be: its digits are joined to a number that is rounded, and scaling that number rounds once
more.

Main definitions:
* `Number.ReadsBack`, `Number.Readable`: the digits of a number are read as that number, or as some
  number.
* `Json.numbers`: all numbers in a document.
* `Json.reread`: the document that is spelled when a document is written.

Main results:
* `Number.Whole.readsBack`: integers that fit read back.
* `Json.document_chars_reread`, `Json.document_chars`: a written document is a document.
-/
namespace KernelLink

open Json (read nestingLimit)
open Text.Utf8 (encode)

/-- What is written for the number is read as that number. -/
def Number.ReadsBack (n : Number) : Prop := read (encode n.text.toList) = .ok (.num n)

/-- What is written for the number is read as a number. -/
def Number.Readable (n : Number) : Prop := ∃ m, read (encode n.text.toList) = .ok (.num m)

/-- The number that is read when the number is written; if none is, the number itself. -/
def Number.reread (n : Number) : Number :=
  match read (encode n.text.toList) with
  | .ok (.num m) => m
  | _ => n

/-- A number that can be read again is read as what it is reread as; that need not be the number
itself. -/
theorem Number.Readable.read {n : Number} (h : n.Readable) :
    Json.read (encode n.text.toList) = .ok (.num n.reread) := by
  obtain ⟨m, hm⟩ := h
  unfold Number.reread
  rw [hm]

theorem Number.ReadsBack.readable {n : Number} (h : n.ReadsBack) : n.Readable := ⟨n, h⟩

theorem Number.ReadsBack.reread {n : Number} (h : n.ReadsBack) : n.reread = n := by
  unfold Number.reread
  rw [h]

/-- An integer that fits a machine word reads back, being a whole document by itself. -/
theorem Number.Whole.readsBack {n : Number} (h : n.Whole) : n.ReadsBack := by
  have hread := Json.read_chars_whole (v := .num n) (by unfold Json.whole; exact decide_eq_true h)
    (Nat.zero_le _)
  rw [Json.chars] at hread
  exact hread

namespace Json

mutual
/-- All numbers in a document. -/
def numbers : Json → List Number
  | .num n => [n]
  | .arr items => numbersItems items
  | .obj members => numbersMembers members
  | .null | .bool _ | .str _ => []

/-- All numbers in the items of a sequence. -/
def numbersItems : List Json → List Number
  | [] => []
  | v :: vs => numbers v ++ numbersItems vs

/-- All numbers in the members of an object. -/
def numbersMembers : List (String × Json) → List Number
  | [] => []
  | (_, v) :: ms => numbers v ++ numbersMembers ms
end

mutual
/-- The document that is spelled when the document is written. -/
def reread : Json → Json
  | .num n => .num n.reread
  | .arr items => .arr (rereadItems items)
  | .obj members => .obj (rereadMembers members)
  | .null => .null
  | .bool b => .bool b
  | .str s => .str s

/-- The same for the items of a sequence. -/
def rereadItems : List Json → List Json
  | [] => []
  | v :: vs => reread v :: rereadItems vs

/-- The same for the members of an object. -/
def rereadMembers : List (String × Json) → List (String × Json)
  | [] => []
  | (k, v) :: ms => (k, reread v) :: rereadMembers ms
end

mutual
/-- A document whose numbers read back is spelled itself: rereading changes numbers only. -/
theorem reread_eq : ∀ {v : Json}, (∀ n ∈ v.numbers, n.ReadsBack) → v.reread = v
  | .null, _ | .bool _, _ | .str _, _ => by rw [reread]
  | .num n, h => by
    rw [reread, (h n (by rw [numbers]; exact List.mem_singleton_self n)).reread]
  | .arr vs, h => by
    rw [numbers] at h
    rw [reread, rereadItems_eq h]
  | .obj ms, h => by
    rw [numbers] at h
    rw [reread, rereadMembers_eq h]

/-- A list whose numbers all read back is reread as it was, item by item. -/
theorem rereadItems_eq : ∀ {vs : List Json}, (∀ n ∈ numbersItems vs, n.ReadsBack) →
    rereadItems vs = vs
  | [], _ => by rw [rereadItems]
  | v :: vs, h => by
    rw [numbersItems] at h
    rw [rereadItems, reread_eq fun n hn => h n (List.mem_append_left _ hn),
      rereadItems_eq fun n hn => h n (List.mem_append_right _ hn)]

theorem rereadMembers_eq : ∀ {ms : List (String × Json)},
    (∀ n ∈ numbersMembers ms, n.ReadsBack) → rereadMembers ms = ms
  | [], _ => by rw [rereadMembers]
  | (k, v) :: ms, h => by
    rw [numbersMembers] at h
    rw [rereadMembers, reread_eq fun n hn => h n (List.mem_append_left _ hn),
      rereadMembers_eq fun n hn => h n (List.mem_append_right _ hn)]
end

mutual
/-- A document that is reread is nested as deep, since only numbers may have changed. -/
theorem depth_reread : ∀ v : Json, v.reread.depth = v.depth
  | .null | .bool _ | .str _ => by rw [reread]
  | .num _ => by rw [reread, depth, depth]
  | .arr vs => by rw [reread, depth, depth, depth_rereadItems vs]
  | .obj ms => by rw [reread, depth, depth, depth_rereadMembers ms]

theorem depth_rereadItems : ∀ vs : List Json, depthItems (rereadItems vs) = depthItems vs
  | [] => by rw [rereadItems]
  | v :: vs => by rw [rereadItems, depthItems, depthItems, depth_reread v, depth_rereadItems vs]

theorem depth_rereadMembers : ∀ ms : List (String × Json),
    depthMembers (rereadMembers ms) = depthMembers ms
  | [] => by rw [rereadMembers]
  | (k, v) :: ms => by
    rw [rereadMembers, depthMembers, depthMembers, depth_reread v, depth_rereadMembers ms]
end

/-! ## Texts -/

/-- A digit to the base of sixteen is read as what it was written for; there are sixteen of them. -/
theorem hexDigit?_hexDigit {n : Nat} (h : n < 16) : hexDigit? (hexDigit n) = some n := by
  revert n
  decide

/-- An escaped character spells the character, whichever form of escape was chosen for it. -/
theorem spells_escapedChar (c : Char) (t : List Char) : SpellsChar (escapedChar c ++ t) c t := by
  unfold escapedChar
  split
  case h_8 hquote hslash _ _ _ _ _ =>
    split
    · next hc =>
      have hzero : hexDigit? '0' = some 0 := by decide
      have hunit := SpellsUnit.digits hzero hzero
        (hexDigit?_hexDigit (n := c.toNat / 16) (by omega))
        (hexDigit?_hexDigit (n := c.toNat % 16) (by omega)) t
      have hnumber : ((0 * 16 + 0) * 16 + c.toNat / 16) * 16 + c.toNat % 16 = c.toNat := by omega
      rw [hnumber] at hunit
      have hchar := SpellsChar.unit hunit (Or.inl (by omega))
      rwa [Char.ofNat_toNat] at hchar
    · next hc => exact .plain hquote hslash (Nat.le_of_not_lt hc) t
  all_goals exact .letter (by decide) t

/-- The escaped characters of a text spell the text, up to its closing quote. Induction on the text.
-/
theorem spells_flatMap (cs t : List Char) :
    SpellsChars (cs.flatMap escapedChar ++ '"' :: t) cs t := by
  induction cs with
  | nil => exact .quote t
  | cons c cs ih =>
    rw [List.flatMap_cons, List.append_assoc]
    exact .char (spells_escapedChar c _) ih

/-- A written text spells the text between its quotes, whatever stands behind it. -/
theorem spells_quotedChars (k : String) (t : List Char) : SpellsText (quotedChars k ++ t) k t := by
  have hspelled := SpellsText.quoted (spells_flatMap k.toList t)
  rw [String.ofList_toList] at hspelled
  unfold quotedChars
  rw [List.cons_append, List.append_assoc]
  exact hspelled

/-! ## Documents -/

theorem SpellsSpaced.of_spells {s t : List Char} {v : Json} (h : Spells s v t) :
    SpellsSpaced s v t := .mk (.none s) h (.none t)

mutual
/-- A written document spells a document, if its numbers are readable. It goes along the document;
what is spelled has the reread numbers in it. -/
theorem spells_chars : ∀ (v : Json), (∀ n ∈ v.numbers, n.Readable) → ∀ (t : List Char),
    SpellsSpaced (chars v ++ t) v.reread t
  | .null, _, t => .of_spells (.null t)
  | .bool true, _, t => .of_spells (.true t)
  | .bool false, _, t => .of_spells (.false t)
  | .num n, h, t => by
    -- a number that can be read is spelled, as reading accepts nothing else
    have hread : n.Readable := h n (by rw [numbers]; exact List.mem_singleton_self n)
    have hspelled := (read_iff.mp hread.read).1.append t
    rw [chars, reread]
    exact hspelled
  | .str s, _, t => by
    rw [chars, reread]
    exact .of_spells (.str (spells_quotedChars s t))
  | .arr [], _, t => .of_spells (.noItems (.none _))
  | .arr (v :: vs), h, t => by
    rw [numbers, numbersItems] at h
    have hv := spells_chars v (fun n hn => h n (List.mem_append_left _ hn)) (charsItems vs ++ t)
    have hvs := spells_charsItems vs (fun n hn => h n (List.mem_append_right _ hn)) hv
    rw [chars, reread, rereadItems, List.cons_append, List.append_assoc]
    exact .of_spells (.arr hvs)
  | .obj [], _, t => .of_spells (.noMembers (.none _))
  | .obj ((k, v) :: ms), h, t => by
    rw [numbers, numbersMembers] at h
    have hv := spells_chars v (fun n hn => h n (List.mem_append_left _ hn)) (charsMembers ms ++ t)
    have hms := spells_charsMembers ms (fun n hn => h n (List.mem_append_right _ hn))
      (.mk (.none _) (spells_quotedChars k _) (.none _) hv)
    rw [chars, reread, rereadMembers, List.cons_append, List.append_assoc, List.cons_append,
      List.append_assoc]
    exact .of_spells (.obj hms)

/-- The items behind the first, and the closing bracket. The spelling of the item in front is
carried along, as the rule for a comma begins with it. -/
theorem spells_charsItems : ∀ (vs : List Json), (∀ n ∈ numbersItems vs, n.Readable) →
    ∀ {s t : List Char} {v : Json}, SpellsSpaced s v (charsItems vs ++ t) →
    SpellsItems s (v :: rereadItems vs) (']' :: t)
  | [], _, _, _, _, hv => .last hv
  | w :: ws, h, s, t, v, hv => by
    rw [numbersItems] at h
    have hw := spells_chars w (fun n hn => h n (List.mem_append_left _ hn)) (charsItems ws ++ t)
    have hws := spells_charsItems ws (fun n hn => h n (List.mem_append_right _ hn)) hw
    rw [charsItems, List.cons_append, List.append_assoc] at hv
    rw [rereadItems]
    exact .cons hv hws

/-- The members behind the first, and the closing brace, with a key carried along besides. -/
theorem spells_charsMembers : ∀ (ms : List (String × Json)),
    (∀ n ∈ numbersMembers ms, n.Readable) → ∀ {s t : List Char} {k : String} {v : Json},
    SpellsMember s k v (charsMembers ms ++ t) →
    SpellsMembers s ((k, v) :: rereadMembers ms) ('}' :: t)
  | [], _, _, _, _, _, hv => .last hv
  | (k', w) :: ns, h, s, t, k, v, hv => by
    rw [numbersMembers] at h
    have hw := spells_chars w (fun n hn => h n (List.mem_append_left _ hn)) (charsMembers ns ++ t)
    have hns := spells_charsMembers ns (fun n hn => h n (List.mem_append_right _ hn))
      (.mk (.none _) (spells_quotedChars k' _) (.none _) hw)
    rw [charsMembers, List.cons_append, List.append_assoc, List.cons_append,
      List.append_assoc] at hv
    rw [rereadMembers]
    exact .cons hv hns
end

/-- A written document is a document, if its numbers are readable: a spelling with nothing left
behind it. -/
theorem document_chars_reread {v : Json} (h : ∀ n ∈ v.numbers, n.Readable) :
    Document (chars v) v.reread := by
  have hspelled := spells_chars v h []
  rw [List.append_nil] at hspelled
  exact hspelled

/-- It is the document that was written, if they read back, since nothing is changed by rereading
it. -/
theorem document_chars {v : Json} (h : ∀ n ∈ v.numbers, n.ReadsBack) : Document (chars v) v := by
  have hspelled := document_chars_reread fun n hn => (h n hn).readable
  rwa [reread_eq h] at hspelled

end Json
end KernelLink
