import KernelLink.Proofs.Mock.Outcomes
import Mathlib.Algebra.Ring.Int.Defs
/-!
# Sums that are too large

The stand-in kernel doubles the value of an object and adds up the integers among some arguments,
both in signed machine words. A result that fits is exact. One that does not fit breaks the program
off: twice the value, or the sum of the arguments up to some place, even if the whole sum fits.

Main definitions:
* `TooLarge`: the requests with such a sum.
* `Exact`: what the program answers to a request that asks for a sum.
* `ComesToLarge`: lines that come to such a request before anything else ends the program.

Main results:
* `sum_eq_none_iff`, `eq_of_sum`: the sum of a list.
* `breaksOff_iff`: a request breaks the program off if its sum is too large.
* `sums_exact_unless_large`, `doubled_breaks_off`: the sums, and where they break off.
-/
namespace KernelLink.Mock

variable {total i : Int} {is : List Int}

/-! ## The sum of a list -/

/-- A sum that is given is exact, by induction on what is added. -/
theorem eq_of_sum {t : Int} (h : sum total is = some t) : t = total + is.sum := by
  induction is generalizing total with
  | nil =>
    rw [List.sum_nil, Int.add_zero]
    exact (Option.some.inj h).symm
  | cons i is ih =>
    rw [sum] at h
    split at h
    · rw [ih h, List.sum_cons, Int.add_assoc]
    · exact nomatch h

/-- A sum is not given if the part up to some place does not fit. -/
theorem sum_eq_none_iff (htotal : fits total = true) :
    sum total is = none ↔ ∃ k, fits (total + (is.take k).sum) = false := by
  induction is generalizing total with
  | nil => simp [sum, htotal]
  | cons i is ih =>
    rw [sum]
    constructor
    · intro h
      split at h
      · -- the first sum fits, so the one that does not is of more numbers
        next hfits =>
        obtain ⟨k, hk⟩ := (ih hfits).mp h
        refine ⟨k + 1, ?_⟩
        rwa [List.take_succ_cons, List.sum_cons, ← Int.add_assoc]
      · next hfits =>
        refine ⟨1, ?_⟩
        rw [List.take_succ_cons, List.take_zero, List.sum_cons, List.sum_nil, Int.add_zero]
        exact Bool.eq_false_iff.mpr hfits
    · rintro ⟨k, hk⟩
      split
      · next hfits =>
        cases k with
        | zero =>
          rw [List.take_zero, List.sum_nil, Int.add_zero, htotal] at hk
          exact nomatch hk
        | succ k =>
          rw [List.take_succ_cons, List.sum_cons, ← Int.add_assoc] at hk
          exact (ih hfits).mpr ⟨k, hk⟩
      · rfl

/-! ## Requests -/

variable {s : Store} {there : Bool} {request : Json}

/-- The request asks for a sum that is too large on the way to the result. -/
inductive TooLarge (s : Store) (request : Json) : Prop where
  /-- Twice the value of an object does not fit. -/
  | double {id : String} {object : Object} {i : Int} (api : textOf "api" request = "invoke")
      (names : objectOf request = some id) (alive : s.find? id = some object)
      (method : textOf "method" request = "double")
      (value : (object.lookup "value").bind Json.int64? = some i) (large : fits (2 * i) = false)
  /-- The sum of the arguments up to some place does not fit. -/
  | add (api : textOf "api" request = "sinvoke") (method : textOf "method" request = "add")
      (k : Nat) (large : fits ((integers (request.member "args")).take k).sum = false)

/-- What the program answers to a request that asks for a sum. -/
structure Exact (there : Bool) (s : Store) (request : Json) : Prop where
  /-- Twice the value of an object, if it has one and the double fits. -/
  double : ∀ id object, textOf "api" request = "invoke" → objectOf request = some id →
    s.find? id = some object → textOf "method" request = "double" →
    match (object.lookup "value").bind Json.int64? with
    | none => (dispatch there s request).1 = fault (id ++ " has no numeric value")
    | some i => fits (2 * i) = true → (dispatch there s request).1 = integer (2 * i)
  /-- The sum of the integers among the arguments, if all parts of it fit. -/
  add : textOf "api" request = "sinvoke" → textOf "method" request = "add" →
    (∀ k, fits ((integers (request.member "args")).take k).sum = true) →
    (dispatch there s request).1 = integer (integers (request.member "args")).sum
  /-- The program breaks off exactly if a sum is too large. -/
  breaksOff : (dispatch there s request).1.code? = some brokenOff ↔ TooLarge s request

/-- Doubling is the only call of an object that computes: it needs a number, and checks that twice
of it fits. -/
theorem invoke_double (id : String) (object : Object) (args : Json) :
    invoke id object "double" args =
      match (object.lookup "value").bind Json.int64? with
      | none => fault (id ++ " has no numeric value")
      | some i =>
        if fits (i * 2) then integer (i * 2)
        else .overflow "attempt to multiply with overflow" := rfl

/-- Which calls of an object break the program off: doubling a value twice of which does not fit,
and no other. -/
theorem invoke_breaksOff_iff {id method : String} {object : Object} {args : Json} :
    (invoke id object method args).code? = some brokenOff ↔
      method = "double" ∧
        ∃ i, (object.lookup "value").bind Json.int64? = some i ∧ fits (2 * i) = false := by
  unfold invoke
  split
  case h_1 =>
    split
    · next hvalue => simp [hvalue, fault, Outcome.code?]
    · next i hvalue =>
      rw [Int.mul_comm i 2]
      split
      · next hfits => simp [hvalue, hfits, integer, result, ok, Outcome.code?]
      · next hfits => simp [hvalue, hfits, Outcome.code?]
  all_goals
    simp_all [fault, result, ok, Outcome.code?, brokenOff]

/-- Which calls of no object do: adding, if some sum on the way does not fit. -/
theorem invokeStatic_breaksOff_iff {method : String} {args : Json} :
    (invokeStatic there s method args).code? = some brokenOff ↔
      method = "add" ∧ sum 0 (integers args) = none := by
  unfold invokeStatic
  split
  case h_3 =>
    split
    · next hsum => simp [hsum, integer, result, ok, Outcome.code?]
    · next hsum => simp [hsum, Outcome.code?]
  all_goals
    simp_all [fault, result, ok, Outcome.code?]

theorem dispatch_invoke {id : String} {object : Object} (api : textOf "api" request = "invoke")
    (names : objectOf request = some id) (alive : s.find? id = some object) :
    dispatch there s request =
      (invoke id object (textOf "method" request) (request.member "args"), s) := by
  unfold dispatch onObject
  rw [api, names]
  simp only [alive]

theorem dispatch_sinvoke (api : textOf "api" request = "sinvoke") :
    dispatch there s request =
      (invokeStatic there s (textOf "method" request) (request.member "args"), s) := by
  unfold dispatch
  rw [api]
  rfl

theorem fits_zero : fits 0 = true := by decide

/-- The sum of the arguments is not given if the part up to some place does not fit. -/
theorem sum_zero_eq_none_iff : sum 0 is = none ↔ ∃ k, fits (is.take k).sum = false := by
  simp only [sum_eq_none_iff fits_zero, Int.zero_add]

/-- A request breaks the program off exactly if its sum is too large. -/
theorem breaksOff_iff :
    (dispatch there s request).1.code? = some brokenOff ↔ TooLarge s request := by
  constructor
  · intro h
    -- only a method that was called can break the program off
    have hobject : ∀ {f : String → Object → Outcome × Store},
        (onObject s request f).1.code? = some brokenOff →
        ∃ id object, objectOf request = some id ∧ s.find? id = some object ∧
          (f id object).1.code? = some brokenOff := fun {f} =>
      onObject_rule
        (P := fun r => r.1.code? = some brokenOff → ∃ id object, objectOf request = some id ∧
          s.find? id = some object ∧ (f id object).1.code? = some brokenOff)
        (fun _ hf => nomatch hf) fun id object names alive hf => ⟨id, object, names, alive, hf⟩
    unfold dispatch at h
    split at h
    · exact nomatch h
    · exact nomatch h
    · obtain ⟨id, object, -, -, hf⟩ := hobject h
      split at hf
      · exact nomatch hf
      · exact nomatch hf
    · obtain ⟨id, object, -, -, hf⟩ := hobject h
      exact nomatch hf
    · next api =>
      obtain ⟨id, object, names, alive, hf⟩ := hobject h
      obtain ⟨method, i, value, large⟩ := invoke_breaksOff_iff.mp hf
      exact .double api names alive method value large
    · next api =>
      obtain ⟨method, hnone⟩ := invokeStatic_breaksOff_iff.mp h
      obtain ⟨k, large⟩ := sum_zero_eq_none_iff.mp hnone
      exact .add api method k large
    · obtain ⟨id, object, -, -, hf⟩ := hobject h
      exact nomatch hf
    · exact nomatch h
  · intro h
    cases h with
    | double api names alive method value large =>
      rw [dispatch_invoke api names alive]
      exact invoke_breaksOff_iff.mpr ⟨method, _, value, large⟩
    | add api method k large =>
      rw [dispatch_sinvoke api]
      exact invokeStatic_breaksOff_iff.mpr ⟨method, sum_zero_eq_none_iff.mpr ⟨k, large⟩⟩

/-- Doubling and adding are exact where the result fits, each number on the way included; what was
checked has not overflowed. -/
theorem exact_dispatch (there : Bool) (s : Store) (request : Json) : Exact there s request where
  double := by
    intro id object api names alive method
    rw [dispatch_invoke api names alive, method]
    show match (object.lookup "value").bind Json.int64? with
      | none => (invoke id object "double" (request.member "args") = _)
      | some i => fits (2 * i) = true → invoke id object "double" (request.member "args") = _
    cases hvalue : (object.lookup "value").bind Json.int64? with
    | none => rw [invoke_double, hvalue]
    | some i =>
      intro hfits
      rw [invoke_double, hvalue]
      show (if fits (i * 2) then integer (i * 2) else _) = _
      rw [Int.mul_comm i 2, if_pos hfits]
  add := by
    intro api method hfits
    rw [dispatch_sinvoke api, method]
    cases hsum : sum 0 (integers (request.member "args")) with
    | none =>
      obtain ⟨k, hk⟩ := sum_zero_eq_none_iff.mp hsum
      rw [hfits k] at hk
      exact nomatch hk
    | some t =>
      have ht := eq_of_sum hsum
      rw [Int.zero_add] at ht
      unfold invokeStatic
      simp only [hsum, ht]
  breaksOff := breaksOff_iff

/-! ## Lines -/

/-- The lines come to a request for a sum that is too large, and nothing ends the program before. -/
def ComesToLarge (s : Store) : List (Bool × String) → Prop
  | [] => False
  | (there, line) :: rest =>
    if Text.isBlankText line then ComesToLarge s rest
    else
      (∃ request, Json.readValue (Text.Utf8.bytes line) = .ok request ∧ TooLarge s request) ∨
        ((answer there s line).1.code? = none ∧ ComesToLarge (answer there s line).2 rest)

variable {line : String} {lines : List (Bool × String)}

/-- A line breaks the program off exactly if it asks for something too large. -/
theorem answer_breaksOff_iff :
    (answer there s line).1.code? = some brokenOff ↔
      ∃ request, Json.readValue (Text.Utf8.bytes line) = .ok request ∧ TooLarge s request := by
  unfold answer
  cases hread : Json.readValue (Text.Utf8.bytes line) with
  | ok request => simp [breaksOff_iff]
  | error e => simp [fault, Outcome.code?]

/-- The program breaks off exactly if it comes to a request for a sum that is too large. -/
theorem code_eq_brokenOff_iff :
    (Transcript.of (serveLines s lines)).code = brokenOff ↔ ComesToLarge s lines := by
  rw [code_serveLines]
  induction lines generalizing s with
  | nil => exact iff_of_false (by simp [outcomes, brokenOff]) id
  | cons l lines ih =>
    obtain ⟨there, line⟩ := l
    rw [ComesToLarge]
    by_cases hblank : Text.isBlankText line = true
    · rw [outcomes_blank hblank, if_pos hblank, ih]
    have hends := @answer_breaksOff_iff s there line
    rw [outcomes_served hblank, if_neg hblank, ← hends, List.findSome?_cons]
    cases hcode : (answer there s line).1.code? with
    | some code => simp
    | none => simp [ih]

/-! ## The whole -/

/-- Each request for a sum is answered with the exact result if it fits, and with an error if there
is nothing to be doubled. The program breaks off exactly if it comes to a request for a sum that
does not fit on the way to the result. -/
theorem sums_exact_unless_large (s : Store) :
    (∀ there request, Exact there s request) ∧
      ∀ lines, (Transcript.of (serveLines s lines)).code = brokenOff ↔ ComesToLarge s lines :=
  ⟨fun there request => exact_dispatch there s request, fun _ => code_eq_brokenOff_iff⟩

/-- An object is made whose value fits a machine word, and is asked to double it. Twice the value
does not fit. -/
def largeValue : List Json :=
  [.obj [("api", .str "create"), ("fqn", .str "calc.Counter"),
      ("args", .arr [.num (.int 4611686018427387904)])],
    .obj [("api", .str "invoke"), ("objref", only idKey (.str "calc.Counter@10001")),
      ("method", .str "double")]]

/-- Integers whose sum fits a machine word are to be added. The sum of the first two does not
fit. -/
def largeSum : List Json :=
  [.obj [("api", .str "sinvoke"), ("method", .str "add"),
      ("args", .arr [.num (.int 9223372036854775807), .num (.int 1), .num (.int (-1))])]]

/-- Both break the program off, the second although the sum in the end would fit. -/
theorem doubled_breaks_off :
    (Transcript.of (serveLines .empty (largeValue.map fun v => (true, v.text)))).code = brokenOff ∧
      (Transcript.of (serveLines .empty (largeSum.map fun v => (true, v.text)))).code =
        brokenOff ∧
      fits 4611686018427387904 = true ∧
      fits ([9223372036854775807, 1, -1] : List Int).sum = true := by
  refine ⟨?_, ?_, by decide, by decide⟩
  · decide +kernel
  · decide +kernel

end KernelLink.Mock
