import KernelLink.Proofs.Mock.Replies
/-!
# What a program leaves that serves lines

Line by line the stand-in kernel comes to outcomes: none for a blank line, one for any other, and no
more once an outcome ends it. What it puts out and how it ends can be told from the outcomes alone,
whatever the objects are.

Main definitions:
* `Outcome.document?`, `Outcome.line?`, `Outcome.code?`: what an outcome puts out, and how it ends
  the program.
* `outcomes`: what the lines of an input lead to.
* `serveLines`: what the program does for them.

Main results:
* `outcomes_rule`: an invariant that every line keeps.
* `outs_serveLines`: what is put out.
* `code_serveLines`: how the program ends.
-/
namespace KernelLink.Mock

open Host (Delivery)

/-! ## One outcome -/

/-- The document that is put out for an outcome. -/
def Outcome.document? : Outcome → Option Json
  | .reply document | .warned _ _ document => some document
  | .raw _ | .complaint _ | .silent | .crash _ | .overflow _ => none

/-- The line that is put out for an outcome, without its end. -/
def Outcome.line? : Outcome → Option String
  | .raw text => some text
  | o => o.document?.map Json.text

/-- How the program ends, if it ends with this outcome. -/
def Outcome.code? : Outcome → Option Nat
  | .crash _ => some 1
  | .overflow _ => some brokenOff
  | .reply _ | .warned .. | .raw _ | .complaint _ | .silent => none

/-- What comes out of an outcome is its line, if it has one. -/
theorem Outcome.outs_effects (o : Outcome) : outs o.effects = (o.line?.map lineOf).toList := by
  cases o <;> rfl

/-- The program goes on after an outcome exactly if that has no exit code. -/
theorem Outcome.goesOn_effects (o : Outcome) : goesOn o.effects = o.code?.isNone := by
  cases o <;> rfl

theorem Outcome.line?_of_code? {o : Outcome} (h : o.code?.isSome = true) : o.line? = none := by
  cases o with
  | crash | overflow => rfl
  | reply | warned | raw | complaint | silent => exact nomatch h

/-! ## Many lines -/

/-- What the lines of an input lead to, each with whether the artifact is there at that time. Blank
lines lead to nothing, and no line is served behind one that ends the program. -/
def outcomes (s : Store) : List (Bool × String) → List Outcome
  | [] => []
  | (there, line) :: rest =>
    if Text.isBlankText line then outcomes s rest
    else
      let (o, s) := answer there s line
      o :: if o.code?.isSome then [] else outcomes s rest

/-- What the program does for these lines, as if nothing ended it before. -/
def serveLines (s : Store) : List (Bool × String) → List Effect
  | [] => [.exit 0]
  | (there, line) :: rest =>
    let (effects, s) := onLine there s (.line line)
    effects ++ serveLines s rest

/-- With an artifact that is there all the time, or never, this is what the program does. -/
theorem serveLines_map (there : Bool) (s : Store) (lines : List String) :
    serveLines s (lines.map fun line => (there, line)) = onLines there s (lines.map .line) := by
  induction lines generalizing s with
  | nil => rfl
  | cons line lines ih =>
    show (onLine there s (.line line)).1 ++ serveLines _ _ =
      (onLine there s (.line line)).1 ++ onLines _ _ _
    rw [ih]

variable {s : Store} {there : Bool} {line : String} {lines : List (Bool × String)}

theorem outcomes_blank (h : Text.isBlankText line = true) :
    outcomes s ((there, line) :: lines) = outcomes s lines := if_pos h

/-- Any other line has one, and those of the next lines follow unless it ends the program. -/
theorem outcomes_served (h : ¬ Text.isBlankText line = true) :
    outcomes s ((there, line) :: lines) = (answer there s line).1 ::
      if (answer there s line).1.code?.isSome then [] else outcomes (answer there s line).2 lines :=
  if_neg h

/-- If one line keeps an invariant of the objects and the number of the outcomes before it, and what
it leads to has some property, so has every outcome. -/
theorem outcomes_rule {I : Nat → Store → Prop} {P : Nat → Outcome → Prop}
    (hstep : ∀ n s there line, I n s →
      P n (answer there s line).1 ∧ I (n + 1) (answer there s line).2)
    {n i : Nat} (hs : I n s) {o : Outcome} (ho : (outcomes s lines)[i]? = some o) :
    P (n + i) o := by
  induction lines generalizing s n i with
  | nil => exact nomatch ho
  | cons l lines ih =>
    obtain ⟨there, line⟩ := l
    by_cases hblank : Text.isBlankText line = true
    · rw [outcomes_blank hblank] at ho
      exact ih hs ho
    obtain ⟨hfirst, hnext⟩ := hstep n s there line hs
    rw [outcomes_served hblank] at ho
    cases i with
    | zero => exact Option.some.inj ho ▸ hfirst
    | succ i =>
      rw [List.getElem?_cons_succ] at ho
      split at ho
      · exact nomatch ho
      · rw [← Nat.add_assoc, Nat.add_right_comm]
        exact ih hnext ho

/-- What every line leads to is in particular what all lines of an input lead to. -/
theorem of_mem_outcomes {P : Outcome → Prop} (h : ∀ s there line, P (answer there s line).1)
    {o : Outcome} (ho : o ∈ outcomes s lines) : P o := by
  obtain ⟨i, hi⟩ := List.getElem?_of_mem ho
  exact outcomes_rule (I := fun _ _ => True) (P := fun _ => P)
    (fun _ s there line _ => ⟨h s there line, trivial⟩) (n := 0) trivial hi

theorem serveLines_blank (h : Text.isBlankText line = true) :
    serveLines s ((there, line) :: lines) = serveLines s lines := by
  show (serve there s line).1 ++ serveLines (serve there s line).2 lines = _
  rw [serve, if_pos h, List.nil_append]

/-- Any other line has the effects of its outcome, and those of the next lines follow. -/
theorem serveLines_served (h : ¬ Text.isBlankText line = true) :
    serveLines s ((there, line) :: lines) =
      (answer there s line).1.effects ++ serveLines (answer there s line).2 lines := by
  show (serve there s line).1 ++ serveLines (serve there s line).2 lines = _
  rw [serve, if_neg h]

/-- For each outcome its line is put out, and nothing else. Induction on the lines; behind an
outcome that ends the program there are neither outcomes nor effects that count. -/
theorem outs_serveLines :
    outs (serveLines s lines) = ((outcomes s lines).filterMap Outcome.line?).map lineOf := by
  induction lines generalizing s with
  | nil => rfl
  | cons l lines ih =>
    obtain ⟨there, line⟩ := l
    by_cases hblank : Text.isBlankText line = true
    · rw [serveLines_blank hblank, outcomes_blank hblank, ih]
    rw [serveLines_served hblank, outcomes_served hblank, outs_append, Outcome.outs_effects,
      Outcome.goesOn_effects]
    generalize (answer there s line).1 = o
    -- an outcome with an exit code is the last one, and writes nothing
    cases hcode : o.code? with
    | some code =>
      have hnone : o.line? = none := Outcome.line?_of_code? (by rw [hcode]; rfl)
      rw [List.filterMap_cons_none hnone, hnone]
      rfl
    | none =>
      show _ ++ outs (serveLines _ lines) = (List.filterMap _ (o :: outcomes _ lines)).map _
      cases hline : o.line? with
      | none =>
        rw [List.filterMap_cons_none hline, ih]
        rfl
      | some text =>
        rw [List.filterMap_cons_some hline, ih]
        rfl

/-- The exit code of effects is that of the later ones, if the program goes on after the earlier
ones. -/
theorem code_append {as : List Effect} (bs : List Effect) (h : goesOn as = true) :
    (Transcript.of (as ++ bs)).code = (Transcript.of bs).code := by
  induction as with
  | nil => rfl
  | cons a as ih =>
    cases a with
    | out text | err text | sleep ms => exact ih h
    | exit code => exact nomatch h

/-- An outcome that ends the program gives the exit code, whatever would follow. -/
theorem Outcome.code_effects {o : Outcome} {code : Nat} (h : o.code? = some code)
    (bs : List Effect) : (Transcript.of (o.effects ++ bs)).code = code := by
  cases o with
  | crash | overflow => exact Option.some.inj h
  | reply | warned | raw | complaint | silent => exact nomatch h

/-- The program ends with the first outcome that ends it, or at the end of the input. -/
theorem code_serveLines :
    (Transcript.of (serveLines s lines)).code =
      ((outcomes s lines).findSome? Outcome.code?).getD 0 := by
  induction lines generalizing s with
  | nil => rfl
  | cons l lines ih =>
    obtain ⟨there, line⟩ := l
    by_cases hblank : Text.isBlankText line = true
    · rw [serveLines_blank hblank, outcomes_blank hblank, ih]
    rw [serveLines_served hblank, outcomes_served hblank]
    generalize (answer there s line).1 = o
    cases hcode : o.code? with
    | some code =>
      rw [Outcome.code_effects hcode, List.findSome?_cons, hcode]
      rfl
    | none =>
      have hgoes : goesOn o.effects = true := by
        rw [Outcome.goesOn_effects, hcode]
        rfl
      rw [code_append _ hgoes, ih, List.findSome?_cons, hcode]
      rfl

end KernelLink.Mock
