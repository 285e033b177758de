import KernelLink.Mock.Program
import KernelLink.Proofs.Host.WholeLines
/-!
# A line of input gives at most one line of output

Whatever a line asks for, the stand-in kernel puts out one line for it or nothing. So if it has put
out as many lines as it was given, each of them answers the line of its place; and the line in each
place depends on the lines before it only through the objects that they leave.

Main definitions:
* `Mock.outs`: the texts that effects put out, until the program ends.
* `Mock.storeAfter`: the objects after some lines.
* `Mock.IsReply`: a text without controls that is not blank.
* `Mock.Replies`: the text that is put out for the line in some place.

Main results:
* `Mock.outs_onLine`: one line of input.
* `Mock.length_outs_le`: no more lines come out than went in.
* `Mock.outs_getElem?`: the line in each place.
-/
namespace KernelLink.Mock

open Host (Delivery)
open Text (Plain)

/-! ## What effects put out -/

/-- The texts that effects put out, up to the first effect that ends the program. -/
def outs : List Effect → List String
  | [] => []
  | .out text :: rest => text :: outs rest
  | .exit _ :: _ => []
  | .err _ :: rest | .sleep _ :: rest => outs rest

/-- Does no effect end the program? -/
def goesOn : List Effect → Bool
  | [] => true
  | .exit _ :: _ => false
  | .out _ :: rest | .err _ :: rest | .sleep _ :: rest => goesOn rest

/-- What comes out of effects in two parts: the later ones count only if the program goes on after
the earlier ones. -/
theorem outs_append (as bs : List Effect) :
    outs (as ++ bs) = outs as ++ if goesOn as then outs bs else [] := by
  induction as with
  | nil => rfl
  | cons a as ih =>
    cases a with
    | out text => exact congrArg (text :: ·) ih
    | exit code => rfl
    | err text => exact ih
    | sleep ms => exact ih

/-- What a program has written are these texts, one after the other. -/
theorem bytes_output (es : List Effect) :
    Text.Utf8.bytes (Transcript.of es).output = (outs es).flatMap Text.Utf8.bytes := by
  induction es with
  | nil => rfl
  | cons e es ih =>
    cases e with
    | out text =>
      show Text.Utf8.bytes (text ++ (Transcript.of es).output) = _
      rw [outs, List.flatMap_cons, ← ih]
      unfold Text.Utf8.bytes
      rw [String.toList_append, Text.Utf8.encode_append]
    | exit code => rfl
    | err text => exact ih
    | sleep ms => exact ih

/-! ## One line of input -/

/-- A line tells its text, since every line ends in the same way. -/
theorem lineOf_inj {text text' : String} (h : lineOf text = lineOf text') : text = text' := by
  have hlists := congrArg String.toList h
  unfold lineOf at hlists
  rw [String.toList_append, String.toList_append] at hlists
  exact String.toList_inj.mp (List.append_cancel_right hlists)

/-- A text without controls that is not blank. -/
structure IsReply (text : String) : Prop where
  /-- It has no controls. -/
  plain : Plain text.toList
  /-- It is not blank. -/
  inked : Text.isBlankText text = false

/-- What is put out for a reply is a line, since a reply holds no control. -/
theorem IsReply.isLine {text : String} (h : IsReply text) :
    Host.IsLine (Text.Utf8.bytes (lineOf text)) := by
  unfold Text.Utf8.bytes lineOf
  rw [String.toList_append, Text.Utf8.encode_append]
  exact Host.isLine_encode h.plain

/-- It is read as the reply, with its line end taken off and nothing else. -/
theorem IsReply.lineOf_bytes {text : String} (h : IsReply text) :
    Host.lineOf (Text.Utf8.bytes (lineOf text)) = .line text := by
  unfold Text.Utf8.bytes lineOf
  rw [String.toList_append, Text.Utf8.encode_append]
  exact (Host.lineOf_encode h.plain).trans (by rw [String.ofList_toList])

/-- A document is put out as its line, that is with a line feed behind it. -/
theorem bytes_lineOf_text (v : Json) : Text.Utf8.bytes (lineOf v.text) = v.lineBytes := by
  unfold Text.Utf8.bytes lineOf Json.text Json.lineBytes
  rw [String.toList_append, String.toList_ofList, Text.Utf8.encode_append]
  rfl

/-- An object as text is a reply: it holds no control and does not begin with a blank. -/
theorem isReply_obj (members : List (String × Json)) : IsReply (Json.obj members).text := by
  refine ⟨?_, ?_⟩
  · unfold Json.text
    rw [String.toList_ofList]
    exact Json.plain_chars _
  · unfold Text.isBlankText Json.text
    rw [String.toList_ofList]
    have hbrace : Text.isBlank '{' = false := by decide
    cases members with
    | nil => rw [Json.chars, List.all_cons, hbrace, Bool.false_and]
    | cons m ms => rw [Json.chars, List.all_cons, hbrace, Bool.false_and]

/-- What an outcome puts out is one reply or nothing. -/
def Outcome.Proper : Outcome → Prop
  | .reply document | .warned _ _ document => ∃ members, document = .obj members
  | .raw text => IsReply text
  | .complaint _ | .silent | .crash _ | .overflow _ => True

theorem proper_ok (payload : Json) : (ok payload).Proper := ⟨_, rfl⟩

theorem proper_fault (message : String) : (fault message).Proper := ⟨_, rfl⟩

theorem proper_invoke (id : String) (object : Object) (method : String) (args : Json) :
    (invoke id object method args).Proper := by
  unfold invoke
  split
  · split
    · exact proper_fault _
    · split
      · exact proper_ok _
      · exact True.intro
  · exact proper_ok _
  · exact True.intro
  · exact True.intro
  · exact ⟨by decide, by decide⟩
  · exact proper_ok _
  · exact ⟨_, rfl⟩
  · exact ⟨_, rfl⟩
  · exact True.intro
  · exact proper_fault _
  · exact proper_fault _

theorem proper_invokeStatic (there : Bool) (s : Store) (method : String) (args : Json) :
    (invokeStatic there s method args).Proper := by
  unfold invokeStatic
  split
  · exact proper_ok _
  · exact proper_ok _
  · split
    · exact proper_ok _
    · exact True.intro
  · exact proper_fault _

/-- What holds of every fault, and of what is done with an object that is named and alive, holds of
a request about an object. -/
theorem onObject_rule {s : Store} {request : Json} {f : String → Object → Outcome × Store}
    {P : Outcome × Store → Prop} (hfault : ∀ message, P (fault message, s))
    (hobject : ∀ id object, objectOf request = some id → s.find? id = some object →
      P (f id object)) :
    P (onObject s request f) := by
  unfold onObject
  split
  · exact hfault _
  · next id hid =>
    split
    · exact hfault _
    · next object hfind => exact hobject id object hid hfind

/-- And whatever is done with an object, if it gives one where the object is there. -/
theorem proper_onObject {s : Store} {request : Json} {f : String → Object → Outcome × Store}
    (h : ∀ id object, (f id object).1.Proper) : (onObject s request f).1.Proper :=
  onObject_rule (P := fun r => r.1.Proper) proper_fault fun id object _ _ => h id object

theorem proper_dispatch (there : Bool) (s : Store) (request : Json) :
    (dispatch there s request).1.Proper := by
  unfold dispatch
  split
  · exact proper_ok _
  · exact proper_ok _
  · refine proper_onObject fun id object => ?_
    split
    · exact proper_ok _
    · exact proper_ok _
  · exact proper_onObject fun id object => proper_ok _
  · exact proper_onObject fun id object => proper_invoke _ _ _ _
  · exact proper_invokeStatic _ _ _ _
  · exact proper_onObject fun id object => proper_ok _
  · exact proper_fault _

theorem proper_answer (there : Bool) (s : Store) (line : String) :
    (answer there s line).1.Proper := by
  unfold answer
  split
  · exact proper_dispatch _ _ _
  · exact proper_fault _

/-- A proper answer puts out one line and goes on, or puts out nothing. -/
theorem outs_effects {o : Outcome} (h : o.Proper) :
    outs o.effects = [] ∨
      goesOn o.effects = true ∧ ∃ text, outs o.effects = [lineOf text] ∧ IsReply text := by
  cases o with
  | reply document =>
    obtain ⟨members, rfl⟩ := h
    exact Or.inr ⟨rfl, _, rfl, isReply_obj members⟩
  | warned warning delay document =>
    obtain ⟨members, rfl⟩ := h
    exact Or.inr ⟨rfl, _, rfl, isReply_obj members⟩
  | raw text => exact Or.inr ⟨rfl, text, rfl, h⟩
  | complaint text => exact Or.inl rfl
  | silent => exact Or.inl rfl
  | crash text => exact Or.inl rfl
  | overflow text => exact Or.inl rfl

/-- For one line of input one reply comes out, and the program goes on, or nothing does. -/
theorem outs_onLine (there : Bool) (s : Store) (d : Delivery) :
    outs (onLine there s d).1 = [] ∨
      goesOn (onLine there s d).1 = true ∧
        ∃ text, outs (onLine there s d).1 = [lineOf text] ∧ IsReply text := by
  cases d with
  | line text =>
    simp only [onLine, serve]
    by_cases hblank : Text.isBlankText text = true
    · rw [if_pos hblank]
      exact Or.inl rfl
    · rw [if_neg hblank]
      exact outs_effects (proper_answer there s text)
  | unreadable fault => exact Or.inl rfl
  | ended => exact Or.inl rfl

/-! ## Many lines of input -/

/-- The objects after some lines. -/
def storeAfter (there : Bool) (s : Store) (ds : List Delivery) : Store :=
  ds.foldl (fun s d => (onLine there s d).2) s

variable {there : Bool} {s : Store} {d : Delivery} {ds : List Delivery}

theorem storeAfter_cons : storeAfter there s (d :: ds) = storeAfter there (onLine there s d).2 ds :=
  rfl

theorem storeAfter_append (ds es : List Delivery) :
    storeAfter there s (ds ++ es) = storeAfter there (storeAfter there s ds) es :=
  List.foldl_append

/-- What comes out for some lines is what comes out for the first and, if the program goes on, for
the others. -/
theorem outs_onLines_cons : outs (onLines there s (d :: ds)) = outs (onLine there s d).1 ++
    if goesOn (onLine there s d).1 then outs (onLines there (onLine there s d).2 ds) else [] :=
  outs_append _ _

/-- Everything that comes out is a reply on a line of its own. Induction on the lines. -/
theorem isReply_of_mem_outs {text : String} (h : text ∈ outs (onLines there s ds)) :
    ∃ t, text = lineOf t ∧ IsReply t := by
  induction ds generalizing s with
  | nil => exact absurd h (List.not_mem_nil)
  | cons d ds ih =>
    rw [outs_onLines_cons, List.mem_append] at h
    rcases h with h | h
    · rcases outs_onLine there s d with hnone | ⟨-, t, hone, ht⟩
      · rw [hnone] at h
        exact absurd h List.not_mem_nil
      · rw [hone, List.mem_singleton] at h
        exact ⟨t, h, ht⟩
    · split at h
      · exact ih h
      · exact absurd h List.not_mem_nil

/-- What came out stays when more lines go in, by induction on those that went in before. -/
theorem outs_onLines_grow (es : List Delivery) :
    outs (onLines there s ds) <+: outs (onLines there s (ds ++ es)) := by
  induction ds generalizing s with
  | nil => exact List.nil_prefix
  | cons d ds ih =>
    rw [List.cons_append, outs_onLines_cons, outs_onLines_cons, List.prefix_append_right_inj]
    split
    · exact ih
    · exact List.prefix_rfl

/-- No more lines come out than went in, as each puts out one at most. -/
theorem length_outs_le : (outs (onLines there s ds)).length ≤ ds.length := by
  induction ds generalizing s with
  | nil => exact Nat.le_refl 0
  | cons d ds ih =>
    have htail := @ih (onLine there s d).2
    rw [outs_onLines_cons, List.length_append, List.length_cons]
    rcases outs_onLine there s d with hnone | ⟨hgoes, t, hone, -⟩
    · rw [hnone, List.length_nil]
      split
      · omega
      · rw [List.length_nil]
        omega
    · rw [hone, if_pos hgoes, List.length_singleton]
      omega

/-- If as many lines came out as went in, the first of them answers the first. -/
theorem outs_cons_of_length (h : (outs (onLines there s (d :: ds))).length = (d :: ds).length) :
    (outs (onLines there (onLine there s d).2 ds)).length = ds.length ∧
      ∃ text, outs (onLine there s d).1 = [lineOf text] ∧ IsReply text ∧
        outs (onLines there s (d :: ds)) =
          lineOf text :: outs (onLines there (onLine there s d).2 ds) := by
  have htail := @length_outs_le there (onLine there s d).2 ds
  rw [outs_onLines_cons] at h ⊢
  rcases outs_onLine there s d with hnone | ⟨hgoes, t, hone, ht⟩
  · -- the other lines cannot make up for a line that nothing comes out for
    rw [hnone, List.nil_append, List.length_cons] at h
    split at h
    · omega
    · exact absurd h (by simp)
  · rw [hone, if_pos hgoes, List.length_append, List.length_singleton, List.length_cons] at h
    exact ⟨by omega, t, hone, ht, by rw [hone, if_pos hgoes]; rfl⟩

/-- What is put out for the line in some place is a line with this text. -/
def Replies (there : Bool) (s : Store) (ds : List Delivery) (i : Nat) (text : String) : Prop :=
  ∃ d, ds[i]? = some d ∧
    outs (onLine there (storeAfter there s (ds.take i)) d).1 = [lineOf text] ∧ IsReply text

/-- There is only one such text, since it stands at a given place of what comes out. -/
theorem Replies.unique {i : Nat} {text text' : String} (h : Replies there s ds i text)
    (h' : Replies there s ds i text') : text = text' := by
  obtain ⟨d, hd, hone, -⟩ := h
  obtain ⟨d', hd', hone', -⟩ := h'
  rw [hd, Option.some.injEq] at hd'
  subst hd'
  rw [hone] at hone'
  exact lineOf_inj (List.cons.inj hone').1

/-- What is put out for a line depends on no later line. -/
theorem Replies.append {i : Nat} {text : String} (h : Replies there s ds i text)
    (es : List Delivery) : Replies there s (ds ++ es) i text := by
  obtain ⟨d, hd, hone, htext⟩ := h
  obtain ⟨hlt, -⟩ := List.getElem?_eq_some_iff.mp hd
  refine ⟨d, ?_, ?_, htext⟩
  · rw [List.getElem?_append_left hlt]
    exact hd
  · rw [List.take_append_of_le_length (Nat.le_of_lt hlt)]
    exact hone

/-- If as many lines came out as went in, each answers the line of its place. -/
theorem outs_getElem? (h : (outs (onLines there s ds)).length = ds.length) {i : Nat}
    (hi : i < ds.length) :
    ∃ text, Replies there s ds i text ∧ (outs (onLines there s ds))[i]? = some (lineOf text) := by
  induction ds generalizing s i with
  | nil => exact absurd hi (Nat.not_lt_zero i)
  | cons d ds ih =>
    obtain ⟨hrest, text, hone, htext, hall⟩ := outs_cons_of_length h
    cases i with
    | zero => exact ⟨text, ⟨d, rfl, hone, htext⟩, by rw [hall]; rfl⟩
    | succ i =>
      obtain ⟨t, hreply, hget⟩ := ih hrest (Nat.lt_of_succ_lt_succ hi)
      exact ⟨t, hreply, by rw [hall, List.getElem?_cons_succ]; exact hget⟩

/-- If each line is answered, as many lines come out as went in. -/
theorem length_outs_eq (h : ∀ i < ds.length, ∃ text, Replies there s ds i text) :
    (outs (onLines there s ds)).length = ds.length := by
  induction ds generalizing s with
  | nil => rfl
  | cons d ds ih =>
    obtain ⟨text, d', hd, hone, -⟩ := h 0 (Nat.succ_pos _)
    obtain rfl := Option.some.inj hd
    have hgoes : goesOn (onLine there s d).1 = true := by
      rcases outs_onLine there s d with hnone | ⟨hgoes, -⟩
      · exact absurd (hnone.symm.trans hone) (by simp)
      · exact hgoes
    have htail := @ih (onLine there s d).2 fun i hi => h (i + 1) (Nat.succ_lt_succ hi)
    rw [outs_onLines_cons, if_pos hgoes, List.length_append, htail, List.length_cons,
      show (outs (onLine there s d).1).length = 1 from congrArg List.length hone, Nat.add_comm]

end KernelLink.Mock
