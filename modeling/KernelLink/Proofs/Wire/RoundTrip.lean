import KernelLink.Proofs.Json.ReadBack
import KernelLink.Proofs.Json.Records
import KernelLink.Proofs.Wire.SingleLine
/-!
# Requests read back

Whoever cuts a stream of requests at its line feeds has one piece for each request. Reading a piece
finds the tag first, takes the other members as they come, and then finds each field of the
operation under its name. So the request is read that was written, if its document can be read at
all: its numbers are integers that fit a machine word, it is not nested deeper than the limit, and
its untyped values are in normal form.

Main definitions:
* `Request.Portable`: what a request must be to be read back.
* `Request.Writes`: bytes that are a written request.

Main results:
* `Request.readTagged_chars`: a written request is divided into its tag and its fields.
* `Request.read_chars`: a written request is read back.
* `Request.stream_pieces`: a stream of requests is cut into them, and each is read back.
-/
namespace KernelLink

open Json (Shape Reading chars charsMembers quotedChars nestingLimit)
open Text.Utf8 (encode)

/-! ## The tag -/

/-- No field has the name of another, or of the tag. -/
theorem Api.nodup_names (api : Api) : ("api" :: api.shape.fields.map (·.name)).Nodup := by
  cases api <;> decide

theorem Api.check_name (api : Api) : Api.check (.str api.name) = .ok api := by
  cases api <;> decide

namespace Request

/-- The members behind the tag. -/
def fields (r : Request) : List (String × Json) := (r.api.shape.fields.map (·.name)).zip r.values

/-- A request is written as its tag, which is the name of its operation, and its fields. -/
theorem toJson_fields (r : Request) : r.toJson = .obj (("api", .str r.api.name) :: r.fields) := by
  rw [← Api.tag_eq_name]
  rfl

theorem body_fields (r : Request) : r.body = .obj r.fields := rfl

theorem api_not_mem_fields (r : Request) : "api" ∉ r.fields.map Prod.fst := by
  intro hmem
  obtain ⟨m, hm, hkey⟩ := List.mem_map.mp hmem
  have hname := (List.of_mem_zip hm).1
  rw [hkey] at hname
  exact (List.nodup_cons.mp r.api.nodup_names).1 hname

theorem readApi_name (api : Api) (s : List UInt8) :
    readApi (encode (quotedChars api.name) ++ s) = .ok (api, s) := by
  have hvalue : Json.value 0 0 (encode (quotedChars api.name) ++ s) = .ok (.str api.name, s) := by
    rw [Json.encode_quotedChars]
    unfold Json.value
    show (Json.quotedText _).map _ = _
    rw [Json.quotedText_quotedChars]
    rfl
  rw [Json.encode_quotedChars] at hvalue ⊢
  have hglyph : Json.glyph 34 = '"' := by decide
  unfold readApi
  rw [Json.skipSpace_cons (by decide)]
  simp only [hglyph, hvalue, Api.check_name]
  rfl

/-! ## The other members -/

variable {item : List UInt8 → Reading Json} {n : Nat} {first : Bool}
  {found ms : List (String × Json)} {s r : List UInt8}

/-- One round of reading members that ends well: there is none, or one with a value and then the
others. -/
theorem members_round
    (h : Json.members (Json.addMember item) (n + 1) first found s = .ok (ms, r)) :
    (Json.nextKey first s = .ok (none, r) ∧ ms = found) ∨
    ∃ key s₁ s₂ v s₃, Json.nextKey first s = .ok (some key, s₁) ∧ Json.colon s₁ = .ok s₂ ∧
      item s₂ = .ok (v, s₃) ∧
      Json.members (Json.addMember item) n false ((key, v) :: found) s₃ = .ok (ms, r) := by
  rw [Json.members] at h
  rcases hkey : Json.nextKey first s with f | ⟨_ | key, s₁⟩
  · rw [hkey] at h
    cases h
  · rw [hkey] at h
    obtain ⟨rfl, rfl⟩ := Prod.mk.inj (Except.ok.inj h)
    exact Or.inl ⟨rfl, rfl⟩
  · rw [hkey] at h
    simp only [Json.addMember, bind, Except.bind] at h
    rcases hcolon : Json.colon s₁ with f | s₂
    · rw [hcolon] at h
      cases h
    · rw [hcolon] at h
      rcases hitem : item s₂ with f | ⟨v, s₃⟩
      · simp only [hitem] at h
        cases h
      · simp only [hitem] at h
        exact Or.inr ⟨key, s₁, s₂, v, s₃, rfl, hcolon, hitem, h⟩

/-- What was found stays, behind what is found later; by induction on the rounds. -/
theorem members_suffix (h : Json.members (Json.addMember item) n first found s = .ok (ms, r)) :
    found <:+ ms := by
  induction n generalizing first found s with
  | zero => cases h
  | succ n ih =>
    rcases members_round h with ⟨_, rfl⟩ | ⟨key, _, _, v, _, _, _, _, hrest⟩
    · exact List.suffix_refl _
    · exact (List.suffix_cons (key, v) found).trans (ih hrest)

/-- Once the tag is known, the other members are taken as those of any object are. -/
theorem members_divideText {api : Api}
    (h : Json.members (Json.addMember item) n first found s = .ok (ms, r))
    (hms : "api" ∉ ms.map Prod.fst) :
    Json.members (divideText item) n first (some api, found) s = .ok ((some api, ms), r) := by
  induction n generalizing first found s with
  | zero => cases h
  | succ n ih =>
    rw [Json.members]
    rcases members_round h with ⟨hnone, rfl⟩ | ⟨key, s₁, s₂, v, s₃, hkey, hcolon, hitem, hrest⟩
    · rw [hnone]
    · -- the tag is known, so a second one would be taken as a member
      have hne : key ≠ "api" := by
        rintro rfl
        exact hms (List.mem_map_of_mem ((members_suffix hrest).subset List.mem_cons_self))
      have hstep : divideText item (some api, found) key s₁ =
          .ok ((some api, (key, v) :: found), s₃) := by
        simp only [divideText, if_neg hne, hcolon, bind, Except.bind, hitem, pure, Except.pure]
      rw [hkey]
      simp only [hstep]
      exact ih hrest

/-! ## A whole request -/

/-- What a request must be to be read back: its untyped values are in normal form, its numbers are
integers that fit, and it is not nested too deep. -/
structure Portable (r : Request) : Prop where
  /-- Untyped values have their members sorted, and none twice. -/
  normal : ∀ v ∈ r.values, v.normal = v
  /-- All numbers are integers that fit a machine word. -/
  whole : r.toJson.whole = true
  /-- Arrays and objects are not nested deeper than a reader goes. -/
  depth : r.toJson.depth ≤ nestingLimit

variable {q : Request}

/-- The fields of a written request are read behind its tag, each to the value that was written. -/
theorem members_fields (hw : q.toJson.whole = true) (hd : q.toJson.depth ≤ nestingLimit)
    {fuel n : Nat} (hn : (charsMembers q.fields).length ≤ n) (hfuel : n ≤ fuel) :
    Json.members (divideText (Json.value fuel (nestingLimit - 1))) n false (some q.api, [])
      (encode (charsMembers q.fields)) = .ok ((some q.api, q.fields.reverse), []) := by
  rw [toJson_fields, Json.whole, Json.wholeMembers_cons] at hw
  have hdepth : Json.depthMembers q.fields ≤ nestingLimit - 1 := by
    rw [toJson_fields, Json.depth] at hd
    exact (Json.depthMembers_cons_le.mp (Nat.le_sub_of_add_le hd)).2
  have hreads := Json.reads_charsMembers q.fields (nestingLimit - 1) n [] [] hn hfuel
  rw [List.append_nil] at hreads
  rcases hms : Json.members (Json.addMember (Json.value fuel (nestingLimit - 1))) n false []
      (encode (charsMembers q.fields)) with f | ⟨ms, s⟩
  · rw [hms] at hreads
    exact absurd ⟨hw.2, hdepth⟩ hreads
  · rw [hms] at hreads
    obtain ⟨⟨us, halike, rfl⟩, rfl, -⟩ := hreads
    rw [halike.eq hw.2, List.append_nil] at hms
    refine members_divideText hms ?_
    rw [List.map_reverse, List.mem_reverse]
    exact q.api_not_mem_fields

/-- An object is divided member by member into the tag and the others, and these are kept in their
order. -/
theorem readTagged_object {t r : List UInt8} {api : Api} {rest : List (String × Json)}
    (h : Json.members (divideText (Json.value (t.length + 2) (nestingLimit - 1))) (t.length + 2)
      true (none, []) t = .ok ((some api, rest), r)) :
    readTagged (123 :: t) = .ok (⟨some api, .obj rest.reverse⟩, r) := by
  have hglyph : Json.glyph 123 = '\x7b' := by decide
  unfold readTagged
  rw [Json.skipSpace_cons (by decide)]
  simp only [hglyph, List.length_cons, Nat.add_assoc, Nat.reduceAdd, h]

/-- The first member of a written request is its tag. -/
theorem divideText_tag (api : Api) (s : List UInt8) :
    divideText item (none, []) "api" (58 :: (encode (quotedChars api.name) ++ s)) =
      .ok ((some api, []), s) := by
  show (readApi _).bind _ = _
  rw [readApi_name]
  rfl

/-- Dividing a written request gives its tag, and its fields in their order. -/
theorem readTagged_chars (hw : q.toJson.whole = true) (hd : q.toJson.depth ≤ nestingLimit) :
    readTagged (encode q.toJson.chars) = .ok (⟨some q.api, q.body⟩, []) := by
  have hbytes : encode q.toJson.chars = 123 :: (encode (quotedChars "api") ++
      58 :: (encode (quotedChars q.api.name) ++ encode (charsMembers q.fields))) := by
    have hmember := Json.encode_member "api" (.str q.api.name) q.fields []
    rw [List.append_nil, List.append_nil, chars] at hmember
    rw [toJson_fields, chars, chars, Json.encode_cons_ascii (by decide), hmember]
    rfl
  rw [hbytes]
  generalize ht : encode (quotedChars "api") ++
    58 :: (encode (quotedChars q.api.name) ++ encode (charsMembers q.fields)) = t
  -- the fuel, which is the length of the input, is enough for all members
  have hlength : (charsMembers q.fields).length ≤ t.length := by
    have hle := Json.length_le_encode (charsMembers q.fields)
    rw [← ht, List.length_append, List.length_cons, List.length_append]
    omega
  have hfields := members_fields hw hd (Nat.le_succ_of_le hlength) (Nat.le_succ (t.length + 1))
  have hmembers : Json.members (divideText (Json.value (t.length + 2) (nestingLimit - 1)))
      (t.length + 2) true (none, []) t = .ok ((some q.api, q.fields.reverse), []) := by
    have hkey : Json.nextKey true t = .ok (some "api",
        58 :: (encode (quotedChars q.api.name) ++ encode (charsMembers q.fields))) := by
      rw [← ht, Json.nextKey_first]
    rw [Json.members, hkey]
    simp only [divideText_tag]
    exact hfields
  rw [readTagged_object hmembers, List.reverse_reverse, body_fields]

/-- Each operation accepts the values of its fields as they are, provided that reading does not
change them; one case for each operation. -/
theorem accepts_values (origin : Json.Origin) (hq : ∀ v ∈ q.values, v.normal = v) :
    Shape.Accepts origin q.api.shape.fields q.values := by
  have htext : ∀ name s, (Json.Field.required name Json.checkText).check origin (.str s) =
      .ok (.str s) := fun _ _ => rfl
  have htarget : ∀ o : ObjRef, Api.target.check origin o.toJson = .ok o.toJson := fun _ => rfl
  -- values and arguments are the only fields that reading could change
  have harguments : ∀ args : List Json, (Json.arr args).normal = .arr args →
      Api.arguments.check origin (.arr args) = .ok (.arr args) := by
    intro args hargs
    rw [Json.normal] at hargs
    exact congrArg Except.ok hargs
  cases q with
  | load name version tarball =>
    exact .cons (htext _ _) (.cons (htext _ _) (.cons (htext _ _) .nil))
  | create fqn args =>
    exact .cons (htext _ _) (.cons (harguments args (hq _ (by simp [values]))) .nil)
  | get target property => exact .cons (htarget _) (.cons (htext _ _) .nil)
  | set target property value =>
    have hvalue : value.normal = value := hq _ (by simp [values])
    exact .cons (htarget _) (.cons (htext _ _) (.cons (congrArg Except.ok hvalue) .nil))
  | invoke target method args =>
    have hargs := harguments args (hq _ (by simp [values]))
    exact .cons (htarget _) (.cons (htext _ _) (.cons hargs .nil))
  | staticInvoke fqn method args =>
    have hargs := harguments args (hq _ (by simp [values]))
    exact .cons (htext _ _) (.cons (htext _ _) (.cons hargs .nil))
  | del target => exact .cons (htarget _) .nil

/-- The values of the fields of a request make up that request again. -/
theorem ofValues_values (q : Request) : ofValues q.api q.values = some q := by
  cases q <;> rfl

/-- A written request is read back, from its characters as from any stream. -/
theorem read_chars (hq : q.Portable) : read (encode q.toJson.chars) = .ok q := by
  have hfields : q.api.shape.ofJson .buffered q.body = .ok q.values :=
    Shape.ofJson_toJson (List.nodup_cons.mp q.api.nodup_names).2 (accepts_values _ hq.normal)
  unfold read
  rw [readTagged_chars hq.whole hq.depth]
  simp only [ofTagged, ofFields, hfields, ofValues_values]
  rfl

/-! ## A stream of requests -/

/-- What is sent for some requests, one after the other. -/
def stream (qs : List Request) : List UInt8 := qs.flatMap fun q => Text.Utf8.bytes q.line

/-- A stream of requests, cut at its line feeds: their documents, and nothing behind the last. -/
theorem splitOn_stream (qs : List Request) :
    (stream qs).splitOn 10 = qs.map (fun q => encode q.toJson.chars) ++ [[]] := by
  induction qs with
  | nil => rfl
  | cons q qs ih =>
    -- no line feed stands inside a document, since strings are escaped
    have hplain : ∀ b ∈ encode q.toJson.chars, (b == (10 : UInt8)) = false := by
      intro b hb
      rw [beq_eq_false_iff_ne]
      rintro rfl
      exact absurd (Text.Utf8.plain_encode q.toJson.plain_chars 10 hb) (by decide)
    unfold stream at ih ⊢
    rw [List.flatMap_cons, bytes_line_eq, Json.lineBytes, List.append_assoc]
    unfold List.splitOn at ih ⊢
    show List.splitOnP _ (_ ++ 10 :: qs.flatMap fun q => Text.Utf8.bytes q.line) = _
    rw [List.splitOnP_append_cons_of_forall_mem hplain 10 rfl, ih]
    rfl

/-- The bytes are a written request: they are one line at most, the request is read from them, and
the first member of their object, and no other, names its operation. -/
structure Writes (q : Request) (piece : List UInt8) : Prop where
  /-- There are bytes. -/
  nonempty : piece ≠ []
  /-- None of them is a control, so none is a line feed. -/
  plain : ∀ b ∈ piece, 0x20 ≤ b.toNat
  /-- The request is read back. -/
  read : Request.read piece = .ok q
  /-- The tag comes first, and once. -/
  tag : ∃ rest, Json.read piece = .ok (.obj (("api", .str q.api.name) :: rest)) ∧
    "api" ∉ rest.map Prod.fst

theorem Portable.writes (hq : q.Portable) : q.Writes (encode q.toJson.chars) where
  nonempty := by
    obtain ⟨b, s, hs, -⟩ := Json.starts_chars q.toJson []
    rw [List.append_nil] at hs
    rw [hs]
    exact List.cons_ne_nil b s
  plain := Text.Utf8.plain_encode q.toJson.plain_chars
  read := read_chars hq
  tag := ⟨q.fields, (Json.read_chars_whole hq.whole hq.depth).trans
    (congrArg Except.ok q.toJson_fields), q.api_not_mem_fields⟩

/-- Cutting a stream of requests at its line feeds gives one piece for each request, in their order,
from which the request is read back; behind the last line feed there is nothing. -/
theorem stream_pieces (qs : List Request) (h : ∀ q ∈ qs, q.Portable) :
    ∃ pieces, (stream qs).splitOn 10 = pieces ++ [[]] ∧ List.Forall₂ Writes qs pieces := by
  refine ⟨qs.map fun q => encode q.toJson.chars, splitOn_stream qs, ?_⟩
  rw [List.forall₂_map_right_iff, List.forall₂_same]
  intro q hq
  exact (h q hq).writes

/-- Two requests with a line feed, a quote and a character past U+FFFF inside. -/
theorem stream_pieces_two :
    ∃ pieces, (stream [.set ⟨"a\n@1"⟩ "\"" (.obj [("\r", .arr [.num (.int (-5)), .str "𝒳"])]),
        .staticInvoke "f" "m" [.obj []]]).splitOn 10 = pieces ++ [[]] ∧
      List.Forall₂ Writes [.set ⟨"a\n@1"⟩ "\"" (.obj [("\r", .arr [.num (.int (-5)), .str "𝒳"])]),
        .staticInvoke "f" "m" [.obj []]] pieces := by
  refine stream_pieces _ fun q hq => ?_
  rcases List.mem_pair.mp hq with rfl | rfl
  · exact ⟨by decide +kernel, by decide +kernel, by decide +kernel⟩
  · exact ⟨by decide +kernel, by decide +kernel, by decide +kernel⟩

end Request
end KernelLink
