import KernelLink.Proofs.Json.Members
import KernelLink.Proofs.Json.Spelled
import KernelLink.Proofs.Wire.Decoded
/-!
# What a reply line is

A line is a reply exactly if it is a document, apart from the blanks around it. What kind of reply
it is depends on how often the members `ok`, `error` and `stack` stand in it and on the kind of
their values, and on nothing else: a success comes before a fault, and a fault before the bare
document. So exactly one envelope is taken off. A value that is written into an envelope comes out
as it was, if its numbers read back; a double need not.

Main definitions:
* `Envelope.Without`, `Envelope.Only`: no member with a key, and exactly one.
* `Envelope.Describes`: the fault that members describe.

Main results:
* `Envelope.decodeLine_iff`: when a line is decoded, and what it gives.
* `Envelope.decodeLine_classifies`: the same by the kinds of reply.
* `Envelope.double_changed_by_envelope`: a double that does not come out as it was.
-/
namespace KernelLink
namespace Envelope

open Json (Document nestingLimit chars)
open Text.Utf8 (encode)

/-! ## Members by key -/

/-- No member has the key. -/
def Without (key : String) (members : List (String × Json)) : Prop := ∀ m ∈ members, m.1 ≠ key

/-- Exactly one member has the key, and this is its value. -/
def Only (key : String) (v : Json) (members : List (String × Json)) : Prop :=
  ∃ before after, members = before ++ (key, v) :: after ∧ Without key before ∧ Without key after

/-- The values under a key in two parts of the members, one behind the other. -/
theorem valuesOf_append (key : String) (ms ns : List (String × Json)) :
    valuesOf key (ms ++ ns) = valuesOf key ms ++ valuesOf key ns := by
  unfold valuesOf
  rw [List.filter_append, List.map_append]

theorem valuesOf_cons_self (key : String) (v : Json) (ms : List (String × Json)) :
    valuesOf key ((key, v) :: ms) = v :: valuesOf key ms := by
  unfold valuesOf
  rw [List.filter_cons_of_pos (by simp), List.map_cons]

/-- There are no values under a key exactly if no member has it. -/
theorem valuesOf_eq_nil {key : String} {members : List (String × Json)} :
    valuesOf key members = [] ↔ Without key members := by
  unfold valuesOf Without
  rw [List.map_eq_nil_iff, List.filter_eq_nil_iff]
  simp

/-- There is one value under a key exactly if one member has it, wherever that stands. Induction on
the members in the one direction, and cutting them at that member in the other. -/
theorem valuesOf_eq_singleton {key : String} {v : Json} {members : List (String × Json)} :
    valuesOf key members = [v] ↔ Only key v members := by
  constructor
  · intro h
    induction members with
    | nil => exact nomatch h
    | cons m ms ih =>
      obtain ⟨k, u⟩ := m
      by_cases hk : k = key
      · -- the first member that has the key is the only one
        subst hk
        rw [valuesOf_cons_self, List.cons.injEq] at h
        obtain ⟨rfl, hrest⟩ := h
        exact ⟨[], ms, rfl, fun _ hm => (nomatch hm), valuesOf_eq_nil.mp hrest⟩
      · have hskip : valuesOf key ((k, u) :: ms) = valuesOf key ms := by
          unfold valuesOf
          rw [List.filter_cons_of_neg (by simpa using hk)]
        rw [hskip] at h
        obtain ⟨before, after, rfl, hbefore, hafter⟩ := ih h
        refine ⟨(k, u) :: before, after, rfl, fun m hm => ?_, hafter⟩
        rcases List.mem_cons.mp hm with rfl | hm
        · exact hk
        · exact hbefore m hm
  · rintro ⟨before, after, rfl, hbefore, hafter⟩
    rw [valuesOf_append, valuesOf_cons_self, valuesOf_eq_nil.mpr hbefore,
      valuesOf_eq_nil.mpr hafter]
    rfl

/-- The value of the one member with a key is one, for the members with that key are a list of one.
-/
theorem Only.unique {key : String} {v v' : Json} {members : List (String × Json)}
    (h : Only key v members) (h' : Only key v' members) : v = v' := by
  have hv := valuesOf_eq_singleton.mpr h
  rw [valuesOf_eq_singleton.mpr h', List.cons.injEq] at hv
  exact hv.1.symm

/-! ## Faults -/

/-- The members describe a fault: exactly one text `error`, and at most one `stack`, which is a text
or empty. -/
inductive Describes (members : List (String × Json)) : String → Option String → Prop where
  /-- Without a stack. -/
  | plain {message : String} (error : Only "error" (.str message) members)
      (stack : Without "stack" members) : Describes members message none
  /-- With an empty stack. -/
  | empty {message : String} (error : Only "error" (.str message) members)
      (stack : Only "stack" .null members) : Describes members message none
  /-- With a stack. -/
  | full {message trace : String} (error : Only "error" (.str message) members)
      (stack : Only "stack" (.str trace) members) : Describes members message (some trace)

/-- Members that describe a fault are read as that fault, whether the stack is missing, empty or a
text. -/
theorem Describes.faultOf {members : List (String × Json)} {message : String}
    {stack : Option String} (h : Describes members message stack) :
    faultOf members = some (.fault message stack) := by
  unfold Envelope.faultOf
  cases h with
  | plain error stack => rw [valuesOf_eq_singleton.mpr error, valuesOf_eq_nil.mpr stack]
  | empty error stack => rw [valuesOf_eq_singleton.mpr error, valuesOf_eq_singleton.mpr stack]
  | full error stack => rw [valuesOf_eq_singleton.mpr error, valuesOf_eq_singleton.mpr stack]

/-- And what is read as a fault is described by the members; these are the same cases, the other way
round. -/
theorem describes_of_faultOf {members : List (String × Json)} {e : Envelope}
    (h : faultOf members = some e) :
    ∃ message stack, e = .fault message stack ∧ Describes members message stack := by
  unfold faultOf at h
  split at h
  · next message herror hstack =>
    exact ⟨message, none, (Option.some.inj h).symm,
      .plain (valuesOf_eq_singleton.mp herror) (valuesOf_eq_nil.mp hstack)⟩
  · next message herror hstack =>
    exact ⟨message, none, (Option.some.inj h).symm,
      .empty (valuesOf_eq_singleton.mp herror) (valuesOf_eq_singleton.mp hstack)⟩
  · next message stack herror hstack =>
    exact ⟨message, some stack, (Option.some.inj h).symm,
      .full (valuesOf_eq_singleton.mp herror) (valuesOf_eq_singleton.mp hstack)⟩
  · exact nomatch h

/-! ## The kinds of reply -/

/-- The document is a success. -/
def Succeeds (v : Json) : Prop := ∃ members payload, v = .obj members ∧ Only "ok" payload members

/-- The document is a fault, if it is no success. -/
def Fails (v : Json) : Prop :=
  ∃ members message stack, v = .obj members ∧ Describes members message stack

/-- What a document is. -/
inductive Kind : Json → Envelope → Prop where
  /-- A success. -/
  | ok {members : List (String × Json)} {payload : Json} (only : Only "ok" payload members) :
      Kind (.obj members) (.ok payload.normal)
  /-- A fault. -/
  | fault {members : List (String × Json)} {message : String} {stack : Option String}
      (success : ¬ Succeeds (.obj members)) (fault : Describes members message stack) :
      Kind (.obj members) (.fault message stack)
  /-- Neither. -/
  | bare {v : Json} (success : ¬ Succeeds v) (fault : ¬ Fails v) : Kind v (.bare v.normal)

/-- A document is a success exactly if it is an object with one member `ok`, and its payload is that
member. -/
theorem Kind.ok_iff {v p : Json} :
    Kind v (.ok p) ↔ ∃ members w, v = .obj members ∧ Only "ok" w members ∧ p = w.normal := by
  constructor
  · intro h
    cases h with
    | ok only => exact ⟨_, _, rfl, only, rfl⟩
  · rintro ⟨members, w, rfl, honly, rfl⟩
    exact .ok honly

/-- It is a fault exactly if it is no success and its members describe that fault. -/
theorem Kind.fault_iff {v : Json} {message : String} {stack : Option String} :
    Kind v (.fault message stack) ↔
      ∃ members, v = .obj members ∧ (¬ ∃ w, Only "ok" w members) ∧
        Describes members message stack := by
  constructor
  · intro h
    cases h with
    | fault success fault =>
      exact ⟨_, rfl, fun ⟨w, honly⟩ => success ⟨_, w, rfl, honly⟩, fault⟩
  · rintro ⟨members, rfl, hmany, hdescribes⟩
    refine .fault ?_ hdescribes
    rintro ⟨ms, w, hms, honly⟩
    obtain rfl := Json.obj.inj hms
    exact hmany ⟨w, honly⟩

/-- And it is bare exactly if it is neither of the two; then the payload is all of it. -/
theorem Kind.bare_iff {v p : Json} :
    Kind v (.bare p) ↔
      (∀ members, v = .obj members → (¬ ∃ w, Only "ok" w members) ∧
        ¬ ∃ message stack, Describes members message stack) ∧ p = v.normal := by
  constructor
  · intro h
    cases h with
    | bare success fault =>
      refine ⟨fun members hv => ⟨fun ⟨w, honly⟩ => success ⟨members, w, hv, honly⟩, ?_⟩, rfl⟩
      exact fun ⟨message, stack, hd⟩ => fault ⟨members, message, stack, hv, hd⟩
  · rintro ⟨hneither, rfl⟩
    refine .bare ?_ ?_
    · exact fun ⟨members, w, hv, honly⟩ => (hneither members hv).1 ⟨w, honly⟩
    · exact fun ⟨members, message, stack, hv, hd⟩ => (hneither members hv).2 ⟨message, stack, hd⟩

/-- Every document is of the kind that it is classified as; the cases are those in which the
envelope is recognised. -/
theorem kind_ofJson (v : Json) : Kind v (ofJson v) := by
  -- what is no object is neither a success nor a fault
  have hscalar : (∀ members, v ≠ .obj members) → Kind v (.bare v.normal) := fun hne =>
    .bare (fun ⟨members, _, hv, _⟩ => hne members hv) (fun ⟨members, _, _, hv, _⟩ => hne members hv)
  cases v with
  | obj members =>
    unfold ofJson
    dsimp only
    split
    · next payload hok => exact .ok (valuesOf_eq_singleton.mp hok)
    · next hmany =>
      have hsuccess : ¬ Succeeds (.obj members) := by
        rintro ⟨ms, payload, hms, honly⟩
        obtain rfl := Json.obj.inj hms
        exact hmany payload (valuesOf_eq_singleton.mpr honly)
      cases hfault : faultOf members with
      | some e =>
        obtain ⟨message, stack, rfl, hdescribes⟩ := describes_of_faultOf hfault
        exact .fault hsuccess hdescribes
      | none =>
        refine .bare hsuccess ?_
        rintro ⟨ms, message, stack, hms, hdescribes⟩
        obtain rfl := Json.obj.inj hms
        rw [hdescribes.faultOf] at hfault
        exact nomatch hfault
  | null | bool | num | str | arr => exact hscalar fun _ h => nomatch h

/-- A document is of one kind, since each kind excludes those before it. -/
theorem Kind.unique {v : Json} {e e' : Envelope} (h : Kind v e) (h' : Kind v e') : e = e' := by
  cases h with
  | ok only =>
    cases h' with
    | ok only' => rw [only.unique only']
    | fault success _ => exact absurd ⟨_, _, rfl, only⟩ success
    | bare success _ => exact absurd ⟨_, _, rfl, only⟩ success
  | fault success fault =>
    cases h' with
    | ok only => exact absurd ⟨_, _, rfl, only⟩ success
    | fault _ fault' => exact Option.some.inj (fault.faultOf.symm.trans fault'.faultOf)
    | bare _ none => exact absurd ⟨_, _, _, rfl, fault⟩ none
  | bare success none =>
    cases h' with
    | ok only => exact absurd ⟨_, _, rfl, only⟩ success
    | fault _ fault => exact absurd ⟨_, _, _, rfl, fault⟩ none
    | bare => rfl

theorem Kind.ofJson_eq {v : Json} {e : Envelope} (h : Kind v e) : ofJson v = e :=
  (kind_ofJson v).unique h

/-! ## Lines -/

/-- A line is decoded exactly if it is a document within the limit of nesting, apart from the blanks
around it, and then it gives what the document is. -/
theorem decodeLine_iff {line : String} {e : Envelope} :
    decodeLine line = .ok e ↔
      ∃ v, Document (Text.trim line.toList) v ∧ v.depth ≤ nestingLimit ∧ Kind v e := by
  unfold decodeLine
  constructor
  · intro h
    rcases hread : Json.read (encode (Text.trim line.toList)) with f | v
    · rw [hread] at h
      exact nomatch h
    · rw [hread] at h
      obtain rfl := Except.ok.inj h
      obtain ⟨hdocument, hdepth⟩ := Json.read_iff.mp hread
      exact ⟨v, hdocument, hdepth, kind_ofJson v⟩
  · rintro ⟨v, hdocument, hdepth, hkind⟩
    rw [Json.read_iff.mpr ⟨hdocument, hdepth⟩, ← hkind.ofJson_eq]
    rfl

/-- What a line gives that is a document: the kind it is of, and nothing else. -/
theorem decodeLine_eq_iff {line : String} {v : Json}
    (hdocument : Document (Text.trim line.toList) v) (hdepth : v.depth ≤ nestingLimit)
    {e : Envelope} : decodeLine line = .ok e ↔ Kind v e := by
  constructor
  · intro h
    have hv := decodeLine_iff.mpr ⟨v, hdocument, hdepth, kind_ofJson v⟩
    obtain rfl := Except.ok.inj (hv.symm.trans h)
    exact kind_ofJson v
  · exact fun h => decodeLine_iff.mpr ⟨v, hdocument, hdepth, h⟩

theorem without_nil (key : String) : Without key [] := fun _ hm => nomatch hm

theorem without_singleton {key k : String} (h : k ≠ key) (v : Json) : Without key [(k, v)] := by
  intro m hm
  rw [List.mem_singleton.mp hm]
  exact h

/-- One success envelope is taken off, and what was in it may be an envelope again. -/
theorem payload_of_ok {line : String} {v : Json}
    (hdocument : Document (Text.trim line.toList) (.obj [("ok", v)]))
    (hdepth : v.depth < nestingLimit) :
    (decodeLine line).map payload = .ok (.ok v.normal) := by
  have hdepth' : (Json.obj [("ok", v)]).depth ≤ nestingLimit := by
    rw [Json.depth, Json.depthMembers, Json.depthMembers, Nat.max_eq_left (Nat.zero_le _)]
    exact hdepth
  have honly : Only "ok" v [("ok", v)] := ⟨[], [], rfl, without_nil _, without_nil _⟩
  rw [(decodeLine_eq_iff hdocument hdepth').mpr (.ok honly)]
  rfl

/-- One fault is taken off, with its stack or without, whatever the message says. -/
theorem payload_of_fault {line : String} {message : String} {stack : Option String}
    (hdocument : Document (Text.trim line.toList)
      (.obj [("error", .str message), ("stack", (stack.map Json.str).getD .null)])) :
    (decodeLine line).map payload = .ok (.error (.kernel message stack)) := by
  have hdepth : (Json.obj [("error", .str message),
      ("stack", (stack.map Json.str).getD .null)]).depth ≤ nestingLimit := by
    have hflat : ((stack.map Json.str).getD .null).depth = 0 := by cases stack <;> rfl
    simp only [Json.depth, Json.depthMembers, hflat]
    decide
  -- it has no member `ok`
  have hsuccess : ¬ Succeeds (.obj [("error", .str message),
      ("stack", (stack.map Json.str).getD .null)]) := by
    rintro ⟨members, v, hmembers, honly⟩
    obtain rfl := Json.obj.inj hmembers
    exact absurd (valuesOf_eq_singleton.mpr honly) (by simp [valuesOf])
  have herror : Only "error" (.str message) [("error", .str message),
      ("stack", (stack.map Json.str).getD .null)] :=
    ⟨[], _, rfl, without_nil _, without_singleton (by decide) _⟩
  have hstack : Only "stack" ((stack.map Json.str).getD .null) [("error", .str message),
      ("stack", (stack.map Json.str).getD .null)] :=
    ⟨[("error", .str message)], [], rfl, without_singleton (by decide) _, without_nil _⟩
  have hkind : Kind (.obj [("error", .str message), ("stack", (stack.map Json.str).getD .null)])
      (.fault message stack) := by
    cases stack with
    | none => exact .fault hsuccess (.empty herror hstack)
    | some trace => exact .fault hsuccess (.full herror hstack)
  rw [(decodeLine_eq_iff hdocument hdepth).mpr hkind]
  rfl

/-- A line is decoded exactly if it is a document within the limit of nesting, apart from the blanks
around it. It gives a success exactly if the document is an object with exactly one member `ok`,
whatever else it holds; otherwise a fault exactly if it is an object with exactly one `error`, a
text, and at most one `stack`, a text or empty; otherwise the document itself. Payloads are in
normal form, with keys in order and the last of each. So one envelope is taken off: the line of an
object with one member `ok` gives the payload that stands in it, and this is the value that was
written there if its numbers read back; and the line of an `error` and a `stack` gives the kernel's
error. -/
theorem decodeLine_classifies (line : String) :
    ((∃ e, decodeLine line = .ok e) ↔
      ∃ v, Document (Text.trim line.toList) v ∧ v.depth ≤ nestingLimit) ∧
    (∀ v, Document (Text.trim line.toList) v → v.depth ≤ nestingLimit →
      (∀ p, decodeLine line = .ok (.ok p) ↔
        ∃ members w, v = .obj members ∧ Only "ok" w members ∧ p = w.normal) ∧
      (∀ message stack, decodeLine line = .ok (.fault message stack) ↔
        ∃ members, v = .obj members ∧ (¬ ∃ w, Only "ok" w members) ∧
          Describes members message stack) ∧
      (∀ p, decodeLine line = .ok (.bare p) ↔
        (∀ members, v = .obj members → (¬ ∃ w, Only "ok" w members) ∧
          ¬ ∃ message stack, Describes members message stack) ∧ p = v.normal)) ∧
    (∀ members, ∃ sorted, (Json.obj members).normal = .obj sorted ∧ Json.Sorted sorted ∧
      ∀ key, sorted.lookup key = (members.reverse.lookup key).map Json.normal) ∧
    (∀ v, v.depth < nestingLimit → Document (Text.trim line.toList) (.obj [("ok", v)]) →
      (decodeLine line).map payload = .ok (.ok v.normal)) ∧
    (∀ v, v.normal = v → v.depth < nestingLimit → (∀ n ∈ v.numbers, n.ReadsBack) →
      Text.trim line.toList = chars (.obj [("ok", v)]) →
      (decodeLine line).map payload = .ok (.ok v)) ∧
    (∀ message stack, Document (Text.trim line.toList)
        (.obj [("error", .str message), ("stack", (stack.map Json.str).getD .null)]) →
      (decodeLine line).map payload = .ok (.error (.kernel message stack))) := by
  refine ⟨?_, fun v hdocument hdepth => ⟨fun p => ?_, fun message stack => ?_, fun p => ?_⟩,
    Json.normal_obj, fun v hdepth hdocument => payload_of_ok hdocument hdepth,
    fun v hnormal hdepth hnumbers hline => ?_, fun message stack => payload_of_fault⟩
  · constructor
    · rintro ⟨e, h⟩
      obtain ⟨v, hdocument, hdepth, -⟩ := decodeLine_iff.mp h
      exact ⟨v, hdocument, hdepth⟩
    · rintro ⟨v, hdocument, hdepth⟩
      exact ⟨ofJson v, (decodeLine_eq_iff hdocument hdepth).mpr (kind_ofJson v)⟩
  · rw [decodeLine_eq_iff hdocument hdepth, Kind.ok_iff]
  · rw [decodeLine_eq_iff hdocument hdepth, Kind.fault_iff]
  · rw [decodeLine_eq_iff hdocument hdepth, Kind.bare_iff]
  · -- what was written is a document, since its numbers read back
    have hdocument : Document (chars (.obj [("ok", v)])) (.obj [("ok", v)]) := by
      refine Json.document_chars fun n hn => hnumbers n ?_
      rw [Json.numbers, Json.numbersMembers, Json.numbersMembers, List.append_nil] at hn
      exact hn
    rw [← hline] at hdocument
    rw [payload_of_ok hdocument hdepth, hnormal]

/-- An envelope in an envelope: one is taken off, and what is left is the payload as it was sent. -/
theorem envelope_in_envelope :
    (decodeLine (Json.obj [("ok", .obj [("ok", .num (.int 1))])]).text).map payload =
      .ok (.ok (.obj [("ok", .num (.int 1))])) := by
  refine (decodeLine_classifies _).2.2.2.2.1 (.obj [("ok", .num (.int 1))]) (by decide)
    (by decide) ?_ ?_
  · intro n hn
    obtain rfl : n = .int 1 := by simpa [Json.numbers, Json.numbersMembers] using hn
    exact Number.Whole.readsBack (by decide)
  · unfold Json.text
    rw [String.toList_ofList, Json.trim_chars_obj]

/-- The double next to ten to the power −23. It is written as `1e-23`. -/
def smallDouble : Binary64 := ⟨false, 6805647338418769, -129⟩

/-- It comes out of an envelope as its neighbour: one is divided by the double next to ten to the
power 23, and the quotient is rounded again. -/
theorem double_changed_by_envelope :
    Binary64.nearest 1 (Nat.pow 10 23) = some smallDouble ∧
    (Json.obj [("ok", .num (.float smallDouble))]).text = "\x7b\"ok\":1e-23\x7d" ∧
    ¬ ∀ v : Json, v.normal = v → v.depth < nestingLimit →
      (decodeLine (Json.obj [("ok", v)]).text).map payload = .ok (.ok v) := by
  have htext : (Json.obj [("ok", .num (.float smallDouble))]).text = "\x7b\"ok\":1e-23\x7d" := by
    decide +kernel
  refine ⟨by decide +kernel, htext, fun h => ?_⟩
  have hsame := h (.num (.float smallDouble)) rfl (by decide)
  have hread : (decodeLine "\x7b\"ok\":1e-23\x7d").toOption =
      some (.ok (.num (.float ⟨false, 6805647338418770, -129⟩))) := by decide +kernel
  rw [htext] at hsame
  rcases hdecoded : decodeLine "\x7b\"ok\":1e-23\x7d" with f | e
  · rw [hdecoded] at hread
    exact nomatch hread
  · rw [hdecoded] at hread hsame
    obtain rfl := Option.some.inj hread
    have hne : smallDouble ≠ ⟨false, 6805647338418770, -129⟩ := by decide
    simp only [Except.map, payload, Except.ok.injEq, Json.num.injEq, Number.float.injEq] at hsame
    exact hne hsame.symm

end Envelope
end KernelLink
