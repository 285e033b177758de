import KernelLink.Proofs.Json.InRange
import KernelLink.Proofs.Mock.Outcomes
import KernelLink.Proofs.Mock.Requests
import KernelLink.Proofs.Wire.Envelopes
/-!
# Whatever the stand-in kernel replies is an answer

A reply puts together what was read before: members of the request, properties of an object, texts,
and integers that fit a machine word. All its numbers can be read again where they are written, so
whoever reads the reply finds a success or a fault. This is an invariant of the objects: what they
hold was read, and there are no more of them than lines that were served.

A request that names no operation is refused, and so is a line that is no request.

Main definitions:
* `IsAnswer`: a success, or a fault.
* `Store.Holds`: what the objects hold can be written, and there are only so many of them.
* `Unnamed`: a request that names no operation.

Main results:
* `IsAnswer.decodeLine`: an answer is read as such.
* `answers_dispatch`: one request, and the objects after it.
* `answers_outcomes`: all lines of an input.
* `serve_unnamed`: what names no operation is refused.
-/
namespace KernelLink.Mock

open Json (nestingLimit inRange_null inRange_bool inRange_str inRange_num inRange_obj)

/-! ## Answers -/

/-- A document that answers a request: a success, or a fault. -/
inductive IsAnswer : Json → Prop where
  /-- A success, whose payload can be read again. -/
  | ok {payload : Json} (inRange : payload.InRange) : IsAnswer (.obj [("ok", payload)])
  /-- A fault. -/
  | fault (message : String) :
      IsAnswer (.obj [("error", .str message), ("stack", .str "at MockKernel.dispatch")])

/-- Whoever reads an answer takes it for a success or for a fault. -/
theorem IsAnswer.decodeLine {v : Json} (h : IsAnswer v) (hdepth : v.depth ≤ nestingLimit) :
    ∃ e, Envelope.decodeLine v.text = .ok e ∧ ∀ payload, e ≠ .bare payload := by
  cases h with
  | @ok payload inRange =>
    -- a double may be read as its neighbour, but what is written is a document, nested as deep
    have hall : (Json.obj [("ok", payload)]).InRange :=
      inRange_obj.mpr (List.forall_mem_singleton.mpr inRange)
    have hdocument : Json.Document (Text.trim (Json.obj [("ok", payload)]).text.toList)
        (Json.obj [("ok", payload)]).reread := by
      unfold Json.text
      rw [String.toList_ofList, Json.trim_chars_obj]
      exact hall.document
    refine ⟨.ok payload.reread.normal, ?_, fun _ => Envelope.noConfusion⟩
    exact Envelope.decodeLine_iff.mpr ⟨_, hdocument, by rwa [Json.depth_reread],
      Envelope.kind_ofJson _⟩
  | fault message =>
    obtain ⟨stack, hstack⟩ := decodeLine_fault message
    exact ⟨.fault message stack, hstack, fun _ => Envelope.noConfusion⟩

/-- What is put out for an outcome, if it is a document, answers the request. -/
def Outcome.Answers (o : Outcome) : Prop := ∀ v, o.document? = some v → IsAnswer v

theorem answers_ok {payload : Json} (h : payload.InRange) : (ok payload).Answers :=
  fun _ hv => Option.some.inj hv ▸ .ok h

/-- An error is always an answer: it holds a text and nothing else. -/
theorem answers_fault (message : String) : (fault message).Answers :=
  fun _ hv => Option.some.inj hv ▸ .fault message

theorem inRange_only (key : String) {v : Json} (h : v.InRange) : (only key v).InRange :=
  inRange_obj.mpr (List.forall_mem_singleton.mpr h)

theorem answers_result {v : Json} (h : v.InRange) : (result v).Answers :=
  answers_ok (inRange_only _ h)

/-- An integer that fits a signed machine word can be answered, as it also can be read. -/
theorem answers_integer {i : Int} (h : fits i = true) : (integer i).Answers := by
  have hword : Nat.pow 2 63 ≤ Nat.pow 2 64 := by decide
  refine answers_result (inRange_num.mpr ?_)
  unfold fits at h
  rw [Bool.and_eq_true, decide_eq_true_eq, decide_eq_true_eq] at h
  exact ⟨h.1, h.2.trans_le (by exact_mod_cast hword)⟩

/-- A sum that is given fits, since every step of the addition was checked. -/
theorem fits_of_sum {total t : Int} {is : List Int} (htotal : fits total = true)
    (h : sum total is = some t) : fits t = true := by
  induction is generalizing total with
  | nil => exact Option.some.inj h ▸ htotal
  | cons i is ih =>
    rw [sum] at h
    split at h
    · next hfits => exact ih hfits h
    · exact nomatch h

/-! ## Objects -/

/-- The objects hold what can be written, and there are at most `n` of them. -/
structure Store.Holds (n : Nat) (s : Store) : Prop where
  /-- What the objects hold. -/
  inRange : ∀ entry ∈ s.objects, ∀ m ∈ entry.2, m.2.InRange
  /-- How many there are. -/
  few : s.count ≤ n

namespace Store

variable {n : Nat} {s : Store}

theorem holds_empty : empty.Holds 0 := ⟨List.forall_mem_nil _, Nat.le_refl 0⟩

theorem Holds.succ (h : s.Holds n) : s.Holds (n + 1) := ⟨h.inRange, Nat.le_succ_of_le h.few⟩

/-- What an object of the store has is in range, as all that the store holds is. -/
theorem Holds.object (h : s.Holds n) {id : String} {object : Object}
    (hfind : s.find? id = some object) : ∀ m ∈ object, m.2.InRange := by
  obtain ⟨before, after, hobjects, -⟩ := List.lookup_eq_some_iff.mp hfind
  exact h.inRange (id, object) (hobjects ▸ List.mem_append_right _ List.mem_cons_self)

/-- A new object adds its first properties, and one to the number of objects. -/
theorem Holds.create (h : s.Holds n) (className : String) {object : Object}
    (hobject : ∀ m ∈ object, m.2.InRange) : (s.create className object).2.Holds (n + 1) :=
  ⟨List.forall_mem_cons.mpr ⟨hobject, h.inRange⟩, Nat.succ_le_succ h.few⟩

/-- Setting a property puts in a value that is in range and makes no object. -/
theorem Holds.assign (h : s.Holds n) (id property : String) {value : Json}
    (hvalue : value.InRange) : (s.assign id property value).Holds n := by
  refine ⟨fun entry hentry => ?_, ?_⟩
  · obtain ⟨old, hold, rfl⟩ := List.mem_map.mp hentry
    split
    · exact Json.inRange_insertMember hvalue (h.inRange old hold)
    · exact h.inRange old hold
  · exact (List.length_map _).trans_le h.few

/-- Deleting takes away, so nothing has to be shown for what is left. -/
theorem Holds.release (h : s.Holds n) (id : String) : (s.release id).Holds n :=
  ⟨fun entry hentry => h.inRange entry (List.mem_filter.mp hentry).1,
    (List.length_filter_le _ _).trans h.few⟩

end Store

/-! ## Requests -/

/-- Whatever a method of an object is given, what comes of it is an answer: integers that fit,
texts, members of the arguments, or an error. -/
theorem answers_invoke (id method : String) {object : Object} {args : Json}
    (hargs : args.InRange) : (invoke id object method args).Answers := by
  -- outcomes that write no document have nothing in them to be asked about
  have hnone : ∀ {o : Outcome}, o.document? = none → o.Answers := fun ho v hv =>
    nomatch ho.symm.trans hv
  unfold invoke
  split
  · split
    · exact answers_fault _
    · split
      · next hfits => exact answers_integer hfits
      · exact hnone rfl
  · cases hfirst : args.first? with
    | none => exact answers_result inRange_null
    | some v => exact answers_result (hargs.first? hfirst)
  · exact hnone rfl
  · exact hnone rfl
  · exact hnone rfl
  · exact answers_ok (inRange_str _)
  · exact answers_result (inRange_str _)
  · exact answers_result (inRange_str _)
  · exact hnone rfl
  · exact answers_fault _
  · exact answers_fault _

variable {n : Nat} {s : Store} {there : Bool} {request : Json}

/-- So it is for methods of a class. The number of objects is an integer that fits, as long as there
were fewer requests than a word counts. -/
theorem answers_invokeStatic (hs : s.Holds n) (hn : n < 2 ^ 64) (method : String) (args : Json) :
    (invokeStatic there s method args).Answers := by
  unfold invokeStatic
  split
  · exact answers_result (inRange_bool _)
  · have hcount : s.count < 2 ^ 64 := hs.few.trans_lt hn
    exact answers_result (inRange_num.mpr ⟨by omega, by exact_mod_cast hcount⟩)
  · split
    · next total hsum => exact answers_integer (fits_of_sum (by decide) hsum)
    · exact fun _ hv => nomatch hv
  · exact answers_fault _

/-- Creating an object is answered with its name, and what it is given first is part of the request.
-/
theorem answers_create (hs : s.Holds n) (hrequest : request.InRange) :
    (create s request).1.Answers ∧ (create s request).2.Holds (n + 1) := by
  refine ⟨answers_ok (inRange_only _ (inRange_str _)), hs.create _ ?_⟩
  cases hfirst : (request.member "args").first? with
  | none => exact List.forall_mem_nil _
  | some initial =>
    exact List.forall_mem_singleton.mpr ((hrequest.member _).first? hfirst)

/-- A request is answered, and at most one object is added to those that are held. -/
theorem answers_dispatch (hs : s.Holds n) (hn : n < 2 ^ 64) (hrequest : request.InRange) :
    (dispatch there s request).1.Answers ∧ (dispatch there s request).2.Holds (n + 1) := by
  have hempty : (ok (.obj [])).Answers := answers_ok (inRange_obj.mpr (List.forall_mem_nil _))
  -- where an object is asked about, there may be none: then the answer is a fault
  have hobject : ∀ {f : String → Object → Outcome × Store},
      (∀ id object, s.find? id = some object →
        (f id object).1.Answers ∧ (f id object).2.Holds (n + 1)) →
      (onObject s request f).1.Answers ∧ (onObject s request f).2.Holds (n + 1) :=
    fun hf => onObject_rule (P := fun r => r.1.Answers ∧ r.2.Holds (n + 1))
      (fun message => ⟨answers_fault message, hs.succ⟩) fun id object _ => hf id object
  unfold dispatch
  split
  · have htypes : (Json.ofNat 2).InRange := inRange_num.mpr (show (Number.int 2).Whole by decide)
    refine ⟨answers_ok (inRange_obj.mpr ?_), hs.succ⟩
    exact List.forall_mem_cons.mpr ⟨hrequest.member _, List.forall_mem_singleton.mpr htypes⟩
  · exact answers_create hs hrequest
  · refine hobject fun id object hfind => ?_
    split
    · next value hvalue =>
      exact ⟨answers_ok (inRange_only _ (Json.inRange_of_lookup (hs.object hfind) hvalue)), hs.succ⟩
    · exact ⟨hempty, hs.succ⟩
  · exact hobject fun id object _ => ⟨hempty, (hs.assign _ _ (hrequest.member _)).succ⟩
  · exact hobject fun id object _ => ⟨answers_invoke id _ (hrequest.member _), hs.succ⟩
  · exact ⟨answers_invokeStatic hs hn _ _, hs.succ⟩
  · exact hobject fun id object _ => ⟨hempty, (hs.release _).succ⟩
  · exact ⟨answers_fault _, hs.succ⟩

/-! ## Lines -/

variable {line : String} {lines : List (Bool × String)}

/-- A line is answered by an answer, and the store may have one more object afterwards. This is the
step of the induction over a run. -/
theorem answers_answer (hs : s.Holds n) (hn : n < 2 ^ 64) (there : Bool) (line : String) :
    (answer there s line).1.Answers ∧ (answer there s line).2.Holds (n + 1) := by
  unfold answer
  split
  · next request hread => exact answers_dispatch hs hn (Json.inRange_readValue hread)
  · exact ⟨answers_fault _, hs.succ⟩

/-- Every document that is put out answers a request, as long as the number of the objects fits a
machine word. -/
theorem answers_outcomes (hs : s.Holds n) {i : Nat} (hi : n + i < 2 ^ 64) {o : Outcome}
    (ho : (outcomes s lines)[i]? = some o) : o.Answers := by
  -- each outcome adds at most one object, so the number of the objects still fits
  refine outcomes_rule (I := fun n s => n ≤ 2 ^ 64 → s.Holds n)
    (P := fun n o => n < 2 ^ 64 → o.Answers) ?_ (fun _ => hs) ho hi
  intro n s there line hs
  exact ⟨fun hn => (answers_answer (hs hn.le) hn there line).1,
    fun hn => (answers_answer (hs (Nat.le_of_succ_le hn)) hn there line).2⟩

/-- A text that is read off a member stands there, unless it is the empty one that stands for a
missing member. -/
theorem member_of_textOf {key text : String} (hne : text ≠ "") (h : textOf key request = text) :
    request.member key = .str text := by
  unfold textOf at h
  cases hmember : request.member key with
  | str s =>
    rw [hmember] at h
    exact congrArg Json.str h
  | null | bool | num | arr | obj =>
    rw [hmember] at h
    exact absurd h.symm hne

/-- The request names no operation. -/
def Unnamed (request : Json) : Prop := ∀ api : Api, request.member "api" ≠ .str api.name

/-- A request that names no operation is refused, and the store stays: in every other case its tag
is the name of one. -/
theorem dispatch_unnamed (h : Unnamed request) :
    ∃ message, dispatch there s request = (fault message, s) := by
  unfold dispatch
  -- in every other case the request holds the name of an operation
  split
  case h_8 => exact ⟨_, rfl⟩
  case h_1 api => exact absurd (member_of_textOf (by decide) api) (h .load)
  case h_2 api => exact absurd (member_of_textOf (by decide) api) (h .create)
  case h_3 api => exact absurd (member_of_textOf (by decide) api) (h .get)
  case h_4 api => exact absurd (member_of_textOf (by decide) api) (h .set)
  case h_5 api => exact absurd (member_of_textOf (by decide) api) (h .invoke)
  case h_6 api => exact absurd (member_of_textOf (by decide) api) (h .staticInvoke)
  case h_7 api => exact absurd (member_of_textOf (by decide) api) (h .del)

/-- So is a line that is no request, be it that it cannot be read or that it names no operation. -/
theorem answer_unnamed
    (h : ∀ request, Json.readValue (Text.Utf8.bytes line) = .ok request → Unnamed request) :
    ∃ message, answer there s line = (fault message, s) := by
  unfold answer
  split
  · next request hread => exact dispatch_unnamed (h request hread)
  · exact ⟨_, rfl⟩

/-- A line that is no request, or names no operation, is answered with one fault, and the objects
stay as they are. -/
theorem serve_unnamed (hinked : ¬ Text.isBlankText line = true)
    (h : ∀ request, Json.readValue (Text.Utf8.bytes line) = .ok request → Unnamed request) :
    ∃ message stack, serve there s line = ([.out (lineOf (faultText message))], s) ∧
      Envelope.decodeLine (faultText message) = .ok (.fault message stack) := by
  obtain ⟨message, hanswer⟩ := @answer_unnamed s there line h
  obtain ⟨stack, hstack⟩ := decodeLine_fault message
  refine ⟨message, stack, ?_, hstack⟩
  rw [serve, if_neg hinked, hanswer]
  rfl

end KernelLink.Mock
