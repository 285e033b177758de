import KernelLink.Proofs.Json.Numbers
/-!
# Documents read back

What the printer writes for a document, the reader reads as that document and stops where it ends,
as long as all numbers are integers that fit a machine word. It refuses the document exactly if
arrays and objects are nested deeper than it has levels. Other numbers may read back as something
else, or be refused; the document around them is read all the same.

Main definitions:
* `Json.whole`: all numbers are integers that fit.
* `Json.Alike`: the same document, but for the numbers that are not.
* `Json.ReadsAs`: what reading a written document gives.

Main results:
* `Json.reads_chars`: written documents read back, in front of any other bytes.
* `Json.read_chars`: what reading a whole text gives.
* `Json.read_chars_whole`, `Json.read_chars_tooDeep`: with whole numbers, up to the limit of nesting
  and beyond it.
-/
namespace KernelLink
namespace Json

open Text.Utf8 (encode encode_append)

/-! ## Documents that are alike -/

mutual
/-- Is every number an integer that fits a machine word? -/
def whole : Json → Bool
  | .num n => decide n.Whole
  | .arr items => wholeItems items
  | .obj members => wholeMembers members
  | .null | .bool _ | .str _ => true

/-- Is every number in the items whole? -/
def wholeItems : List Json → Bool
  | [] => true
  | v :: vs => whole v && wholeItems vs

/-- Is every number in the members' values whole? -/
def wholeMembers : List (String × Json) → Bool
  | [] => true
  | (_, v) :: ms => whole v && wholeMembers ms
end

mutual
/-- The same document, but for numbers that are not whole. -/
inductive Alike : Json → Json → Prop where
  /-- The empty value. -/
  | null : Alike .null .null
  /-- A truth value. -/
  | bool (b : Bool) : Alike (.bool b) (.bool b)
  /-- A whole number is the same, another may be any. -/
  | num {m n : Number} (h : m.Whole → n = m) : Alike (.num m) (.num n)
  /-- A text. -/
  | str (s : String) : Alike (.str s) (.str s)
  /-- Sequences of alike items. -/
  | arr {vs ws : List Json} (h : AlikeItems vs ws) : Alike (.arr vs) (.arr ws)
  /-- Objects of alike members. -/
  | obj {ms ns : List (String × Json)} (h : AlikeMembers ms ns) : Alike (.obj ms) (.obj ns)

/-- Items that are alike one by one. -/
inductive AlikeItems : List Json → List Json → Prop where
  /-- None. -/
  | nil : AlikeItems [] []
  /-- One more. -/
  | cons {v w : Json} {vs ws : List Json} (head : Alike v w) (tail : AlikeItems vs ws) :
      AlikeItems (v :: vs) (w :: ws)

/-- Members with the same keys whose values are alike. -/
inductive AlikeMembers : List (String × Json) → List (String × Json) → Prop where
  /-- None. -/
  | nil : AlikeMembers [] []
  /-- One more. -/
  | cons {k : String} {v w : Json} {ms ns : List (String × Json)} (head : Alike v w)
      (tail : AlikeMembers ms ns) : AlikeMembers ((k, v) :: ms) ((k, w) :: ns)
end

mutual
/-- A document is like itself. The three statements for values, items and members go along each
other. -/
theorem Alike.refl : ∀ v : Json, Alike v v
  | .null => .null
  | .bool b => .bool b
  | .num _ => .num fun _ => rfl
  | .str s => .str s
  | .arr vs => .arr (AlikeItems.refl vs)
  | .obj ms => .obj (AlikeMembers.refl ms)

theorem AlikeItems.refl : ∀ vs : List Json, AlikeItems vs vs
  | [] => .nil
  | v :: vs => .cons (Alike.refl v) (AlikeItems.refl vs)

theorem AlikeMembers.refl : ∀ ms : List (String × Json), AlikeMembers ms ms
  | [] => .nil
  | (_, v) :: ms => .cons (Alike.refl v) (AlikeMembers.refl ms)
end

mutual
/-- With whole numbers, alike is the same, since only other numbers may differ. -/
theorem Alike.eq : ∀ {v w : Json}, Alike v w → v.whole = true → w = v
  | _, _, .null, _ => rfl
  | _, _, .bool _, _ => rfl
  | _, _, .str _, _ => rfl
  | _, _, .num h, hw => by
    unfold whole at hw
    rw [h (of_decide_eq_true hw)]
  | _, _, .arr h, hw => by
    unfold whole at hw
    rw [h.eq hw]
  | _, _, .obj h, hw => by
    unfold whole at hw
    rw [h.eq hw]

/-- Lists of items that are alike and hold whole numbers are the same. -/
theorem AlikeItems.eq : ∀ {vs ws : List Json}, AlikeItems vs ws → wholeItems vs = true → ws = vs
  | _, _, .nil, _ => rfl
  | _, _, .cons head tail, hw => by
    unfold wholeItems at hw
    rw [Bool.and_eq_true] at hw
    rw [head.eq hw.1, tail.eq hw.2]

/-- So are lists of members, whose keys are the same in any case. -/
theorem AlikeMembers.eq : ∀ {ms ns : List (String × Json)}, AlikeMembers ms ns →
    wholeMembers ms = true → ns = ms
  | _, _, .nil, _ => rfl
  | _, _, .cons head tail, hw => by
    unfold wholeMembers at hw
    rw [Bool.and_eq_true] at hw
    rw [head.eq hw.1, tail.eq hw.2]
end

theorem AlikeMembers.keys {ms ns : List (String × Json)} (h : AlikeMembers ms ns) :
    ns.map Prod.fst = ms.map Prod.fst := by
  induction ms generalizing ns with
  | nil =>
    cases h
    rfl
  | cons m ms ih =>
    cases h with
    | cons head tail => rw [List.map_cons, List.map_cons, ih tail]

/-- What is found under a key is alike, and nothing is found in both or in neither. Induction on the
members, whose keys are the same. -/
theorem AlikeMembers.lookup {ms ns : List (String × Json)} (h : AlikeMembers ms ns)
    (key : String) :
    ms.lookup key = none ∧ ns.lookup key = none ∨
      ∃ v w, ms.lookup key = some v ∧ ns.lookup key = some w ∧ Alike v w := by
  induction ms generalizing ns with
  | nil =>
    cases h
    exact Or.inl ⟨rfl, rfl⟩
  | cons m ms ih =>
    cases h with
    | @cons k v w ms ns head tail =>
      rw [List.lookup_cons, List.lookup_cons]
      cases key == k with
      | true => exact Or.inr ⟨v, w, rfl, rfl, head⟩
      | false => exact ih tail

/-! ## Tokens -/

/-- Can the byte begin a value? -/
def startsValue (b : UInt8) : Bool :=
  match glyph b with
  | 'n' | 't' | 'f' | '"' | '-' | '[' | '{' => true
  | _ => isDigit b

/-- A byte that can begin a value is no blank and does not close a list; all 256 bytes are tried. -/
theorem startsValue_cases (n : Fin 256) : startsValue (UInt8.ofNat n) = true →
    isSpace (UInt8.ofNat n) = false ∧ glyph (UInt8.ofNat n) ≠ ']' := by
  revert n
  decide +kernel

/-- A byte that begins a value is neither a blank nor the end of a sequence. -/
theorem not_space_of_starts {b : UInt8} (h : startsValue b = true) :
    isSpace b = false ∧ glyph b ≠ ']' := by
  have hb : UInt8.ofNat b.toNat = b := UInt8.ofNat_toNat
  have hall := startsValue_cases ⟨b.toNat, b.toNat_lt⟩
  rw [hb] at hall
  exact hall h

theorem startsValue_of_isDigit {b : UInt8} (h : isDigit b = true) : startsValue b = true := by
  unfold startsValue
  split
  all_goals first | rfl | exact h

/-- A written document begins with a byte that begins a value: a bracket, a quote, a letter, a digit
or a minus. -/
theorem starts_chars (v : Json) (r : List UInt8) :
    ∃ b s, encode (chars v) ++ r = b :: s ∧ startsValue b = true := by
  -- all but numbers begin with a character that does not depend on what follows
  have hascii : ∀ {c : Char} {cs : List Char}, chars v = c :: cs → c.toNat < 0x80 →
      startsValue (UInt8.ofNat c.toNat) = true →
      ∃ b s, encode (chars v) ++ r = b :: s ∧ startsValue b = true := by
    intro c cs h hc hs
    rw [h, encode_cons_ascii hc]
    exact ⟨_, _, rfl, hs⟩
  cases v with
  | null => exact hascii (c := 'n') (by rw [chars]) (by decide) (by decide)
  | bool b =>
    cases b with
    | true => exact hascii (c := 't') (by rw [chars]) (by decide) (by decide)
    | false => exact hascii (c := 'f') (by rw [chars]) (by decide) (by decide)
  | str s => exact hascii (c := '"') (by rw [chars, quotedChars]) (by decide) (by decide)
  | arr items =>
    cases items with
    | nil => exact hascii (c := '[') (by rw [chars]) (by decide) (by decide)
    | cons v vs => exact hascii (c := '[') (by rw [chars]) (by decide) (by decide)
  | obj members =>
    cases members with
    | nil => exact hascii (c := '{') (by rw [chars]) (by decide) (by decide)
    | cons m ms => exact hascii (c := '{') (by rw [chars]) (by decide) (by decide)
  | num n =>
    obtain ⟨negative, ds, t, hn⟩ := n.written
    rw [chars, hn.bytes]
    cases negative with
    | true => exact ⟨45, _, rfl, by decide⟩
    | false =>
      obtain ⟨b, s, hs⟩ := List.exists_cons_of_ne_nil hn.nonempty
      refine ⟨b, s ++ t ++ r, ?_, startsValue_of_isDigit (hn.digits b ?_)⟩
      · rw [hs]
        simp
      · rw [hs]
        exact List.mem_cons_self

theorem skipSpace_cons {b : UInt8} (h : isSpace b = false) (s : List UInt8) :
    skipSpace (b :: s) = b :: s := by
  unfold skipSpace
  exact List.dropWhile_cons_of_neg (by rw [h]; exact Bool.false_ne_true)

/-- In front of a value, the first item of a sequence is there to be read. -/
theorem nextItem_first {b : UInt8} (h : startsValue b = true) (s : List UInt8) :
    nextItem true (b :: s) = .ok (true, b :: s) := by
  obtain ⟨hspace, hend⟩ := not_space_of_starts h
  simp only [nextItem, skipSpace_cons hspace, if_neg hend, if_true]

/-- Behind an item, a comma says that another one follows. -/
theorem nextItem_comma {b : UInt8} (h : startsValue b = true) (s : List UInt8) :
    nextItem false (44 :: b :: s) = .ok (true, b :: s) := by
  obtain ⟨hspace, hend⟩ := not_space_of_starts h
  have hcomma : isSpace 44 = false := by decide
  have hbracket : glyph 44 ≠ ']' := by decide
  have hglyph : glyph 44 = ',' := by decide
  simp only [nextItem, skipSpace_cons hcomma, if_neg hbracket, Bool.false_eq_true, if_false,
    if_pos hglyph, skipSpace_cons hspace, if_neg hend]

theorem nextItem_close (first : Bool) (s : List UInt8) :
    nextItem first (93 :: s) = .ok (false, s) := rfl

/-- The first key of an object is read as it is written, between its quotes. -/
theorem nextKey_first (k : String) (s : List UInt8) :
    nextKey true (encode (quotedChars k) ++ s) = .ok (some k, s) := by
  rw [encode_quotedChars]
  show (quotedText _).map _ = _
  rw [quotedText_quotedChars]
  rfl

/-- Behind a member, a comma says that another key follows. -/
theorem nextKey_comma (k : String) (s : List UInt8) :
    nextKey false (44 :: (encode (quotedChars k) ++ s)) = .ok (some k, s) := by
  rw [encode_quotedChars]
  show (quotedText _).map _ = _
  rw [quotedText_quotedChars]
  rfl

theorem nextKey_close (first : Bool) (s : List UInt8) :
    nextKey first (125 :: s) = .ok (none, s) := rfl

/-! ## What reading gives -/

/-- What reading a written document gives in front of `r`: a document like it that ends where `r`
begins, or a refusal, which is for its depth or for a number that is not whole. -/
def ReadsAs (levels : Nat) (v : Json) (r : List UInt8) : Reading Json → Prop
  | .ok (w, s) => Alike v w ∧ s = r ∧ v.depth ≤ levels
  | .error _ => ¬ (v.whole = true ∧ v.depth ≤ levels)

/-- The same for the items of a sequence, when those of `found` were read before. -/
def ItemsReadAs (levels : Nat) (found vs : List Json) (r : List UInt8) :
    Reading (List Json) → Prop
  | .ok (ws, s) => (∃ us, AlikeItems vs us ∧ ws = found.reverse ++ us) ∧ s = r ∧
      depthItems vs ≤ levels
  | .error _ => ¬ (wholeItems vs = true ∧ depthItems vs ≤ levels)

/-- The same for the members of an object, when those of `found` were read before. -/
def MembersReadAs (levels : Nat) (found ms : List (String × Json)) (r : List UInt8) :
    Reading (List (String × Json)) → Prop
  | .ok (ns, s) => (∃ us, AlikeMembers ms us ∧ ns = us.reverse ++ found) ∧ s = r ∧
      depthMembers ms ≤ levels
  | .error _ => ¬ (wholeMembers ms = true ∧ depthMembers ms ≤ levels)

/-- A list is nested no deeper than a limit if its first item and the others are not. -/
theorem depthItems_cons_le {v : Json} {vs : List Json} {n : Nat} :
    depthItems (v :: vs) ≤ n ↔ v.depth ≤ n ∧ depthItems vs ≤ n := by
  rw [depthItems]
  exact Nat.max_le

theorem depthMembers_cons_le {k : String} {v : Json} {ms : List (String × Json)} {n : Nat} :
    depthMembers ((k, v) :: ms) ≤ n ↔ v.depth ≤ n ∧ depthMembers ms ≤ n := by
  rw [depthMembers]
  exact Nat.max_le

/-- The numbers of a list are whole if those of its first item and of the others are. -/
theorem wholeItems_cons {v : Json} {vs : List Json} :
    wholeItems (v :: vs) = true ↔ v.whole = true ∧ wholeItems vs = true := by
  rw [wholeItems, Bool.and_eq_true]

theorem wholeMembers_cons {k : String} {v : Json} {ms : List (String × Json)} :
    wholeMembers ((k, v) :: ms) = true ↔ v.whole = true ∧ wholeMembers ms = true := by
  rw [wholeMembers, Bool.and_eq_true]

/-- One item, and then the others: if it reads back, whatever was found for it, and the others do
behind it, the list does. -/
theorem itemsReadAs_cons {levels n : Nat} {item : List UInt8 → Reading Json} {v : Json}
    {found vs : List Json} {s₀ s r' r : List UInt8}
    (hnext : nextItem found.isEmpty s₀ = .ok (true, s)) (hx : ReadsAs levels v r' (item s))
    (ht : ∀ w, ItemsReadAs levels (w :: found) vs r (items item n (w :: found) r')) :
    ItemsReadAs levels found (v :: vs) r (items item (n + 1) found s₀) := by
  rw [items, hnext]
  -- an item that is not read is one that could not be, and then neither could the sequence
  rcases hitem : item s with f | ⟨w, s'⟩
  · rw [hitem] at hx
    simp only [hitem]
    show ¬ _
    rw [wholeItems_cons, depthItems_cons_le]
    exact fun ⟨⟨hw, _⟩, hd, _⟩ => hx ⟨hw, hd⟩
  · rw [hitem] at hx
    obtain ⟨halike, rfl, hd⟩ := hx
    have htail := ht w
    simp only [hitem]
    rcases hitems : items item n (w :: found) s' with f | ⟨ws, s''⟩
    · rw [hitems] at htail
      show ¬ _
      rw [wholeItems_cons, depthItems_cons_le]
      exact fun ⟨⟨_, hw⟩, _, hd⟩ => htail ⟨hw, hd⟩
    · rw [hitems] at htail
      obtain ⟨⟨us, hus, rfl⟩, rfl, hds⟩ := htail
      refine ⟨⟨w :: us, .cons halike hus, ?_⟩, rfl, depthItems_cons_le.mpr ⟨hd, hds⟩⟩
      rw [List.reverse_cons, List.append_assoc]
      rfl

/-- A member is a colon and a value, which is put in front of those that were found. -/
theorem addMember_colon (item : List UInt8 → Reading Json) (found : List (String × Json))
    (k : String) (s : List UInt8) :
    addMember item found k (58 :: s) = (item s).map fun (w, s) => ((k, w) :: found, s) := by
  have hcolon : colon (58 :: s) = .ok s := rfl
  unfold addMember
  rw [hcolon]
  rcases hitem : item s with f | ⟨w, s'⟩
  · simp only [bind, Except.bind, hitem, Except.map]
  · simp only [bind, Except.bind, hitem, Except.map, pure, Except.pure]

/-- One member, and then the others, in the same way, with the key in front of each value. -/
theorem membersReadAs_cons {levels n : Nat} {item : List UInt8 → Reading Json} {first : Bool}
    {k : String} {v : Json} {found ms : List (String × Json)} {s₀ s r' r : List UInt8}
    (hkey : nextKey first s₀ = .ok (some k, 58 :: s)) (hx : ReadsAs levels v r' (item s))
    (ht : ∀ w, MembersReadAs levels ((k, w) :: found) ms r
      (members (addMember item) n false ((k, w) :: found) r')) :
    MembersReadAs levels found ((k, v) :: ms) r
      (members (addMember item) (n + 1) first found s₀) := by
  rw [members, hkey]
  -- as with the items: what keeps a member from being read keeps the record from it
  rcases hitem : item s with f | ⟨w, s'⟩
  · rw [hitem] at hx
    simp only [addMember_colon, hitem, Except.map]
    show ¬ _
    rw [wholeMembers_cons, depthMembers_cons_le]
    exact fun ⟨⟨hw, _⟩, hd, _⟩ => hx ⟨hw, hd⟩
  · rw [hitem] at hx
    obtain ⟨halike, rfl, hd⟩ := hx
    have htail := ht w
    simp only [addMember_colon, hitem, Except.map]
    rcases hmembers : members (addMember item) n false ((k, w) :: found) s' with f | ⟨ws, s''⟩
    · rw [hmembers] at htail
      show ¬ _
      rw [wholeMembers_cons, depthMembers_cons_le]
      exact fun ⟨⟨_, hw⟩, _, hd⟩ => htail ⟨hw, hd⟩
    · rw [hmembers] at htail
      obtain ⟨⟨us, hus, rfl⟩, rfl, hds⟩ := htail
      refine ⟨⟨(k, w) :: us, .cons halike hus, ?_⟩, rfl, depthMembers_cons_le.mpr ⟨hd, hds⟩⟩
      rw [List.reverse_cons, List.append_assoc]
      rfl

/-- A number behind its minus is read as a negative one. -/
theorem value_sign (fuel levels : Nat) (s : List UInt8) :
    value fuel levels (45 :: s) = (number true s).map fun (n, r) => (.num n, r) := by
  unfold value
  rfl

/-- A number without one is read from its first digit. -/
theorem value_digit (fuel levels : Nat) {b : UInt8} (hb : isDigit b = true) (s : List UInt8) :
    value fuel levels (b :: s) = (number false (b :: s)).map fun (n, r) => (.num n, r) := by
  have hspace := (not_space_of_starts (startsValue_of_isDigit hb)).1
  have hne : ∀ c : Char, c.isDigit = false → glyph b ≠ c := by
    rintro c hc rfl
    rw [isDigit] at hb
    rw [hb] at hc
    exact Bool.false_ne_true hc.symm
  unfold value
  rw [skipSpace_cons hspace]
  split
  · next h => exact absurd h (List.cons_ne_nil _ _)
  · next h =>
    obtain ⟨rfl, rfl⟩ := List.cons.inj h
    split
    all_goals first | exact absurd ‹_› (hne _ (by decide)) | rw [if_pos hb]

/-- A number reads back, or as some other one that ends in the same place. -/
theorem reads_number (fuel levels : Nat) (n : Number) {r : List UInt8} (hr : Ends r) :
    ReadsAs levels (.num n) r (value fuel levels (encode n.text.toList ++ r)) := by
  obtain ⟨negative, ds, t, hn⟩ := n.written
  obtain ⟨hleaves, hwhole⟩ := hn.reads hr
  -- the value is what the number reader gives after the sign
  have hvalue : value fuel levels (encode n.text.toList ++ r) =
      (number negative (ds ++ (t ++ r))).map fun read => (.num read.1, read.2) := by
    rw [hn.bytes, List.append_assoc, List.append_assoc]
    cases negative with
    | true => exact value_sign fuel levels _
    | false =>
      obtain ⟨b, s, hs⟩ := List.exists_cons_of_ne_nil hn.nonempty
      have hb : isDigit b = true := hn.digits b (by rw [hs]; exact List.mem_cons_self)
      rw [hs]
      exact value_digit fuel levels hb _
  rw [hvalue]
  revert hleaves hwhole
  rcases number negative (ds ++ (t ++ r)) with f | ⟨m, s⟩
  · rintro - hwhole ⟨hw, -⟩
    unfold whole at hw
    cases hwhole (of_decide_eq_true hw)
  · intro hleaves hwhole
    refine ⟨.num fun hw => ?_, hleaves m s rfl, Nat.zero_le _⟩
    have hm := hwhole hw
    rw [Except.ok.injEq, Prod.mk.injEq] at hm
    exact hm.1

/-! ## Brackets and braces -/

theorem value_list (fuel levels : Nat) (s : List UInt8) :
    value fuel (levels + 1) (91 :: s) =
      (items (value fuel levels) fuel [] s).map fun (vs, r) => (.arr vs, r) := by
  rw [value]
  rfl

/-- An object is read with one level less for the values of its members. -/
theorem value_object (fuel levels : Nat) (s : List UInt8) :
    value fuel (levels + 1) (123 :: s) =
      (members (addMember (value fuel levels)) fuel true [] s).map fun (ms, r) =>
        (.obj ms.reverse, r) := by
  rw [value]
  rfl

/-- What reading a sequence gives is what reading its items gives, one level further in. -/
theorem readsAs_arr {levels : Nat} {vs : List Json} {r : List UInt8} {x : Reading (List Json)}
    (hx : ItemsReadAs levels [] vs r x) :
    ReadsAs (levels + 1) (.arr vs) r (x.map fun (vs, r) => (.arr vs, r)) := by
  rcases x with f | ⟨ws, s⟩
  · show ¬ _
    rw [whole, depth, Nat.add_le_add_iff_right]
    exact hx
  · obtain ⟨⟨us, hus, rfl⟩, rfl, hd⟩ := hx
    refine ⟨.arr hus, rfl, ?_⟩
    rw [depth]
    exact Nat.add_le_add_right hd 1

/-- What reading an object gives is what reading its members gives, one level further in. -/
theorem readsAs_obj {levels : Nat} {ms : List (String × Json)} {r : List UInt8}
    {x : Reading (List (String × Json))} (hx : MembersReadAs levels [] ms r x) :
    ReadsAs (levels + 1) (.obj ms) r (x.map fun (ms, r) => (.obj ms.reverse, r)) := by
  rcases x with f | ⟨ns, s⟩
  · show ¬ _
    rw [whole, depth, Nat.add_le_add_iff_right]
    exact hx
  · obtain ⟨⟨us, hus, rfl⟩, rfl, hd⟩ := hx
    refine ⟨?_, rfl, ?_⟩
    · rw [List.append_nil, List.reverse_reverse]
      exact .obj hus
    · rw [depth]
      exact Nat.add_le_add_right hd 1

/-- Without levels every sequence and every object is refused, and this is right as each has at
least one. -/
theorem readsAs_tooDeep {v : Json} {r s : List UInt8} (h : 0 < v.depth) :
    ReadsAs 0 v r (stopAt .tooDeep s) := fun ⟨_, hd⟩ => Nat.not_le_of_lt h hd

/-- What follows an item of a list, a comma or the bracket that closes it, ends a number. -/
theorem ends_charsItems (vs : List Json) (r : List UInt8) : Ends (encode (charsItems vs) ++ r) := by
  cases vs with
  | nil => exact ends_cons (b := 93) (s := r) (by decide)
  | cons v vs =>
    rw [charsItems, encode_cons_ascii (by decide)]
    exact ends_cons (by decide)

theorem ends_charsMembers (ms : List (String × Json)) (r : List UInt8) :
    Ends (encode (charsMembers ms) ++ r) := by
  cases ms with
  | nil => exact ends_cons (b := 125) (s := r) (by decide)
  | cons m ms =>
    rw [charsMembers, encode_cons_ascii (by decide)]
    exact ends_cons (by decide)

/-- The bytes of a comma, an item, and the items behind it. -/
theorem encode_charsItems_cons (v : Json) (vs : List Json) (r : List UInt8) :
    encode (charsItems (v :: vs)) ++ r =
      44 :: (encode (chars v) ++ (encode (charsItems vs) ++ r)) := by
  rw [charsItems, encode_cons_ascii (by decide), encode_append, List.cons_append,
    List.append_assoc]
  rfl

/-- The bytes of a key, a colon, a value, and the members behind it. -/
theorem encode_member (k : String) (v : Json) (ms : List (String × Json)) (r : List UInt8) :
    encode (quotedChars k ++ ':' :: (chars v ++ charsMembers ms)) ++ r =
      encode (quotedChars k) ++ 58 :: (encode (chars v) ++ (encode (charsMembers ms) ++ r)) := by
  rw [encode_append, List.append_assoc, encode_cons_ascii (by decide), encode_append,
    List.cons_append, List.append_assoc]
  rfl

/-! ## Documents -/

variable {fuel : Nat}

mutual
/-- A written document reads back, in front of any bytes that cannot go on a number. -/
theorem reads_chars : ∀ (v : Json) (levels : Nat) (r : List UInt8), (chars v).length ≤ fuel →
    Ends r → ReadsAs levels v r (value fuel levels (encode (chars v) ++ r))
  | .null, levels, r, _, _ => by
    rw [chars]
    unfold value
    exact ⟨.null, rfl, Nat.zero_le _⟩
  | .bool true, levels, r, _, _ => by
    rw [chars]
    unfold value
    exact ⟨.bool true, rfl, Nat.zero_le _⟩
  | .bool false, levels, r, _, _ => by
    rw [chars]
    unfold value
    exact ⟨.bool false, rfl, Nat.zero_le _⟩
  | .num n, levels, r, _, hr => by
    rw [chars]
    exact reads_number fuel levels n hr
  | .str s, levels, r, _, _ => by
    rw [chars, encode_quotedChars]
    unfold value
    show ReadsAs levels (.str s) r ((quotedText _).map _)
    rw [quotedText_quotedChars]
    exact ⟨.str s, rfl, Nat.zero_le _⟩
  | .arr [], levels, r, hfuel, _ => by
    rw [chars] at hfuel ⊢
    obtain ⟨n, rfl⟩ := Nat.exists_eq_add_of_lt (Nat.lt_of_lt_of_le (Nat.zero_lt_succ _) hfuel)
    cases levels with
    | zero =>
      -- the bracket itself is one level too deep
      exact readsAs_tooDeep (by rw [depth]; exact Nat.succ_pos _)
    | succ levels =>
      show ReadsAs _ _ r (value _ (levels + 1) (91 :: 93 :: r))
      rw [value_list]
      exact readsAs_arr ⟨⟨[], .nil, rfl⟩, rfl, Nat.zero_le _⟩
  | .arr (v :: vs), levels, r, hfuel, _ => by
    rw [chars, List.length_cons, List.length_append] at hfuel
    have hbytes : encode (chars (.arr (v :: vs))) ++ r =
        91 :: (encode (chars v) ++ (encode (charsItems vs) ++ r)) := by
      rw [chars, encode_cons_ascii (by decide), encode_append, List.cons_append,
        List.append_assoc]
      rfl
    rw [hbytes]
    cases levels with
    | zero => exact readsAs_tooDeep (by rw [depth]; exact Nat.succ_pos _)
    | succ levels =>
      rw [value_list]
      refine readsAs_arr ?_
      -- the first item is followed by a comma or the bracket, which end even a number
      have hv := reads_chars v levels (encode (charsItems vs) ++ r) (by omega)
        (ends_charsItems vs r)
      have hvs := fun w => reads_charsItems vs levels (fuel - 1) [w] r (List.cons_ne_nil w [])
        (by omega) (by omega)
      obtain ⟨b, s, hs, hb⟩ := starts_chars v (encode (charsItems vs) ++ r)
      have hnext := nextItem_first hb s
      rw [← hs] at hnext
      have hitems := @itemsReadAs_cons levels (fuel - 1) _ v [] vs _ _ _ _ hnext hv hvs
      rw [show fuel - 1 + 1 = fuel by omega] at hitems
      exact hitems
  | .obj [], levels, r, hfuel, _ => by
    rw [chars] at hfuel ⊢
    obtain ⟨n, rfl⟩ := Nat.exists_eq_add_of_lt (Nat.lt_of_lt_of_le (Nat.zero_lt_succ _) hfuel)
    cases levels with
    | zero => exact readsAs_tooDeep (by rw [depth]; exact Nat.succ_pos _)
    | succ levels =>
      show ReadsAs _ _ r (value _ (levels + 1) (123 :: 125 :: r))
      rw [value_object]
      exact readsAs_obj ⟨⟨[], .nil, rfl⟩, rfl, Nat.zero_le _⟩
  | .obj ((k, v) :: ms), levels, r, hfuel, _ => by
    rw [chars, List.length_cons, List.length_append, List.length_cons, List.length_append]
      at hfuel
    have hbytes : encode (chars (.obj ((k, v) :: ms))) ++ r = 123 :: (encode (quotedChars k) ++
        58 :: (encode (chars v) ++ (encode (charsMembers ms) ++ r))) := by
      rw [chars, encode_cons_ascii (by decide), List.cons_append, encode_member]
      rfl
    rw [hbytes]
    cases levels with
    | zero => exact readsAs_tooDeep (by rw [depth]; exact Nat.succ_pos _)
    | succ levels =>
      rw [value_object]
      refine readsAs_obj ?_
      have hv := reads_chars v levels (encode (charsMembers ms) ++ r) (by omega)
        (ends_charsMembers ms r)
      have hms := fun w => reads_charsMembers ms levels (fuel - 1) [(k, w)] r (by omega)
        (by omega)
      have hmembers := membersReadAs_cons (nextKey_first k _) hv hms
      rw [show fuel - 1 + 1 = fuel by omega] at hmembers
      exact hmembers

/-- The items of a written sequence read back, behind the first. Induction on the items along with
the values in them; the reader's bound counts characters, and every item has some. -/
theorem reads_charsItems : ∀ (vs : List Json) (levels n : Nat) (found : List Json)
    (r : List UInt8), found ≠ [] → (charsItems vs).length ≤ n → n ≤ fuel →
    ItemsReadAs levels found vs r
      (items (value fuel levels) n found (encode (charsItems vs) ++ r))
  | [], levels, n, found, r, _, hn, _ => by
    rw [charsItems, List.length_singleton] at hn
    obtain ⟨m, rfl⟩ : ∃ m, n = m + 1 := ⟨n - 1, by omega⟩
    rw [charsItems]
    show ItemsReadAs levels found [] r (items (value fuel levels) (m + 1) found (93 :: r))
    rw [items, nextItem_close]
    exact ⟨⟨[], .nil, (List.append_nil _).symm⟩, rfl, Nat.zero_le _⟩
  | v :: vs, levels, n, found, r, hfound, hn, hfuel => by
    rw [charsItems, List.length_cons, List.length_append] at hn
    obtain ⟨m, rfl⟩ : ∃ m, n = m + 1 := ⟨n - 1, by omega⟩
    have hv := reads_chars v levels (encode (charsItems vs) ++ r) (by omega)
      (ends_charsItems vs r)
    have hvs := fun w => reads_charsItems vs levels m (w :: found) r (List.cons_ne_nil w found)
      (by omega) (by omega)
    obtain ⟨b, s, hs, hb⟩ := starts_chars v (encode (charsItems vs) ++ r)
    have hempty : found.isEmpty = false := by simpa using hfound
    have hnext := nextItem_comma hb s
    rw [← hs, ← hempty] at hnext
    rw [encode_charsItems_cons]
    exact itemsReadAs_cons hnext hv hvs

/-- The members of a written object read back, behind the first, in the same way as items. -/
theorem reads_charsMembers : ∀ (ms : List (String × Json)) (levels n : Nat)
    (found : List (String × Json)) (r : List UInt8), (charsMembers ms).length ≤ n → n ≤ fuel →
    MembersReadAs levels found ms r
      (members (addMember (value fuel levels)) n false found (encode (charsMembers ms) ++ r))
  | [], levels, n, found, r, hn, _ => by
    rw [charsMembers, List.length_singleton] at hn
    obtain ⟨m, rfl⟩ : ∃ m, n = m + 1 := ⟨n - 1, by omega⟩
    rw [charsMembers]
    show MembersReadAs levels found [] r
      (members (addMember (value fuel levels)) (m + 1) false found (125 :: r))
    rw [members, nextKey_close]
    exact ⟨⟨[], .nil, rfl⟩, rfl, Nat.zero_le _⟩
  | (k, v) :: ms, levels, n, found, r, hn, hfuel => by
    rw [charsMembers, List.length_cons, List.length_append, List.length_cons,
      List.length_append] at hn
    obtain ⟨m, rfl⟩ : ∃ m, n = m + 1 := ⟨n - 1, by omega⟩
    have hv := reads_chars v levels (encode (charsMembers ms) ++ r) (by omega)
      (ends_charsMembers ms r)
    have hms := fun w => reads_charsMembers ms levels m ((k, w) :: found) r (by omega) (by omega)
    rw [charsMembers, encode_cons_ascii (by decide), List.cons_append, encode_member]
    exact membersReadAs_cons (nextKey_comma k _) hv hms
end

/-! ## Whole texts -/

/-- Every character is at least one byte, so a text has no more characters than bytes. -/
theorem length_le_encode (cs : List Char) : cs.length ≤ (encode cs).length := by
  induction cs with
  | nil => exact Nat.le_refl 0
  | cons c cs ih =>
    have hc : 0 < (String.utf8EncodeChar c).length := by
      rw [String.length_utf8EncodeChar]
      exact c.utf8Size_pos
    rw [Text.Utf8.encode_cons, List.length_append, List.length_cons]
    omega

/-- What reading a whole text gives that is a written document: a document like it, and a refusal
only if a number does not fit or the nesting is too deep. -/
theorem read_chars (v : Json) :
    match read (encode (chars v)) with
    | .ok w => Alike v w ∧ v.depth ≤ nestingLimit
    | .error _ => ¬ (v.whole = true ∧ v.depth ≤ nestingLimit) := by
  have hfuel : (chars v).length ≤ (encode (chars v)).length + 1 :=
    Nat.le_succ_of_le (length_le_encode _)
  have hv := reads_chars v nestingLimit [] hfuel ends_nil
  rw [List.append_nil] at hv
  unfold read document
  rcases hvalue : value ((encode (chars v)).length + 1) nestingLimit (encode (chars v)) with
    f | ⟨w, s⟩
  · rw [hvalue] at hv
    exact hv
  · rw [hvalue] at hv
    obtain ⟨halike, rfl, hd⟩ := hv
    exact ⟨halike, hd⟩

/-- With whole numbers, and up to the limit of nesting, a document reads back. -/
theorem read_chars_whole {v : Json} (hw : v.whole = true) (hd : v.depth ≤ nestingLimit) :
    read (encode (chars v)) = .ok v := by
  have hv := read_chars v
  rcases hread : read (encode (chars v)) with e | w
  · rw [hread] at hv
    exact absurd ⟨hw, hd⟩ hv
  · rw [hread] at hv
    rw [hv.1.eq hw]

/-- Beyond the limit of nesting it is refused, since whatever is read is nested as deep. -/
theorem read_chars_tooDeep {v : Json} (hd : nestingLimit < v.depth) :
    ∃ e, read (encode (chars v)) = .error e := by
  have hv := read_chars v
  rcases hread : read (encode (chars v)) with e | w
  · exact ⟨e, rfl⟩
  · rw [hread] at hv
    exact absurd hv.2 (Nat.not_le_of_lt hd)

end Json
end KernelLink
