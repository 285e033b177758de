import KernelLink.Machine.ShellStep
import Mathlib.Data.List.TakeDrop
/-!
# What patterns fit, and what a shell reads

Two places in a shell go on until something is found, with a bound that is never reached. Whether a
text looks like a pattern is decided by the pattern alone, as its parts say what they stand for. And
what a shell reads from its input is divided into finished scripts and what follows them, so that
nothing is lost and nothing is read twice.

Main definitions:
* `Pattern.Looks`: a text looks like a pattern.

Main results:
* `Pattern.fits_iff`: the test decides it.
* `finishedLines_append`, `finishedLines_bound`: what is read is divided, no more.
-/
namespace KernelLink.Machine

namespace Script.Pattern

/-- A text looks like a pattern: every part of the pattern stands for a part of the text. -/
inductive Looks : Pattern → List Char → Prop where
  /-- Nothing stands for nothing. -/
  | nil : Looks [] []
  /-- A star stands for anything. -/
  | star {p : Pattern} {rest : List Char} (before : List Char) (looks : Looks p rest) :
      Looks (('*', false) :: p) (before ++ rest)
  /-- A question mark stands for one character. -/
  | any {p : Pattern} {rest : List Char} (c : Char) (looks : Looks p rest) :
      Looks (('?', false) :: p) (c :: rest)
  /-- A set stands for one of its members, or for one of the others. -/
  | member {p p' : Pattern} {rest : List Char} {turned : Bool} {ranges : List (Char × Char)}
      (c : Char) (set : set? p = some (turned, ranges, p'))
      (inside : (ranges.any (fun r => r.1 ≤ c && c ≤ r.2) != turned) = true)
      (looks : Looks p' rest) : Looks (('[', false) :: p) (c :: rest)
  /-- A bracket that opens no set stands for itself. -/
  | bracket {p : Pattern} {rest : List Char} (set : set? p = none) (looks : Looks p rest) :
      Looks (('[', false) :: p) ('[' :: rest)
  /-- Everything else stands for itself. -/
  | itself {p : Pattern} {rest : List Char} (c : Char) (literal : Bool)
      (plain : literal = true ∨ (c ≠ '*' ∧ c ≠ '?' ∧ c ≠ '[')) (looks : Looks p rest) :
      Looks ((c, literal) :: p) (c :: rest)

/-- What follows a set is shorter than what begins with it, by induction on the parts that stand in
it. -/
theorem length_upToBracket {isFirst : Bool} {p inside rest : Pattern}
    (h : upToBracket isFirst p = some (inside, rest)) : rest.length < p.length := by
  induction p generalizing isFirst inside rest with
  | nil => exact nomatch h
  | cons part p ih =>
    obtain ⟨c, literal⟩ := part
    rw [upToBracket] at h
    split at h
    · cases h
      exact Nat.lt_succ_self _
    · obtain ⟨⟨inside', rest'⟩, hrest, heq⟩ := Option.map_eq_some_iff.mp h
      cases heq
      exact Nat.lt_succ_of_lt (ih hrest)

/-- What stands behind a set is shorter than the pattern, so the test comes to an end. -/
theorem length_set? {p rest : Pattern} {turned : Bool} {ranges : List (Char × Char)}
    (h : set? p = some (turned, ranges, rest)) : rest.length < p.length := by
  unfold set? at h
  split at h
  next turned' p' heq =>
  have hle : p'.length ≤ p.length := by
    split at heq <;> cases heq
    · exact Nat.le_succ _
    · exact Nat.le_succ _
    · exact Nat.le_refl _
  obtain ⟨⟨inside, rest'⟩, hrest, heq'⟩ := Option.map_eq_some_iff.mp h
  cases heq'
  exact Nat.lt_of_lt_of_le (length_upToBracket hrest) hle

theorem exists_cons {c : Char} {rest : List Char} {P : Char → List Char → Prop} :
    (∃ c' rest', c :: rest = c' :: rest' ∧ P c' rest') ↔ P c rest := by
  constructor
  · rintro ⟨_, _, ⟨rfl, rfl⟩, h⟩
    exact h
  · exact fun h => ⟨c, rest, rfl, h⟩

theorem exists_cons_eq {c d : Char} {rest : List Char} {P : List Char → Prop} :
    (∃ rest', c :: rest = d :: rest' ∧ P rest') ↔ c = d ∧ P rest := by
  constructor
  · rintro ⟨_, ⟨rfl, rfl⟩, h⟩
    exact ⟨rfl, h⟩
  · rintro ⟨rfl, h⟩
    exact ⟨rest, rfl, h⟩

/-! What the first part of a pattern asks of a text. -/

section First

variable {p : Pattern} {cs : List Char}

/-- A star stands for nothing, or for one character and as many more. -/
theorem looks_star :
    Looks (('*', false) :: p) cs ↔
      Looks p cs ∨ ∃ c rest, cs = c :: rest ∧ Looks (('*', false) :: p) rest := by
  constructor
  · intro h
    cases h with
    | star before looks =>
      cases before with
      | nil => exact Or.inl looks
      | cons c before => exact Or.inr ⟨c, _, rfl, .star before looks⟩
    | itself c literal plain => simp at plain
  · rintro (h | ⟨c, rest, rfl, h⟩)
    · exact .star [] h
    · cases h with
      | star before looks => exact .star (c :: before) looks
      | itself c literal plain => simp at plain

theorem looks_any : Looks (('?', false) :: p) cs ↔ ∃ c rest, cs = c :: rest ∧ Looks p rest := by
  constructor
  · intro h
    cases h with
    | any c looks => exact ⟨c, _, rfl, looks⟩
    | itself c literal plain => simp at plain
  · rintro ⟨c, rest, rfl, h⟩
    exact .any c h

/-- A set stands for one character in one of its ranges, or in none if it is turned round. -/
theorem looks_set {p' : Pattern} {turned : Bool} {ranges : List (Char × Char)}
    (hset : set? p = some (turned, ranges, p')) :
    Looks (('[', false) :: p) cs ↔ ∃ c rest, cs = c :: rest ∧
      (ranges.any (fun r => r.1 ≤ c && c ≤ r.2) != turned) = true ∧ Looks p' rest := by
  constructor
  · intro h
    cases h with
    | member c set inside looks =>
      cases set.symm.trans hset
      exact ⟨c, _, rfl, inside, looks⟩
    | bracket set => exact nomatch set.symm.trans hset
    | itself c literal plain => simp at plain
  · rintro ⟨c, rest, rfl, inside, h⟩
    exact .member c hset inside h

theorem looks_bracket (hset : set? p = none) :
    Looks (('[', false) :: p) cs ↔ ∃ rest, cs = '[' :: rest ∧ Looks p rest := by
  constructor
  · intro h
    cases h with
    | member c set => exact nomatch set.symm.trans hset
    | bracket set looks => exact ⟨_, rfl, looks⟩
    | itself c literal plain => simp at plain
  · rintro ⟨rest, rfl, h⟩
    exact .bracket hset h

/-- Every other character stands for itself, and so does each that was quoted. -/
theorem looks_itself {d : Char} {literal : Bool}
    (hplain : literal = true ∨ (d ≠ '*' ∧ d ≠ '?' ∧ d ≠ '[')) :
    Looks ((d, literal) :: p) cs ↔ ∃ rest, cs = d :: rest ∧ Looks p rest := by
  constructor
  · intro h
    cases h with
    | star | any | member | bracket => simp at hplain
    | itself c literal plain looks => exact ⟨_, rfl, looks⟩
  · rintro ⟨rest, rfl, h⟩
    exact .itself d literal hplain h

/-- The test asks the same of it, with one round of its bound used up. -/
theorem fitsWithin_itself {d : Char} {literal : Bool} (fuel : Nat)
    (hplain : literal = true ∨ (d ≠ '*' ∧ d ≠ '?' ∧ d ≠ '[')) :
    fitsWithin (fuel + 1) ((d, literal) :: p) cs = true ↔
      ∃ rest, cs = d :: rest ∧ fitsWithin fuel p rest = true := by
  cases cs with
  | nil =>
    have hnone : fitsWithin (fuel + 1) ((d, literal) :: p) [] = false := by
      rcases hplain with rfl | ⟨hstar, -, -⟩
      · simp [fitsWithin]
      · simp [fitsWithin, hstar]
    simp [hnone]
  | cons c rest =>
    have hcons : fitsWithin (fuel + 1) ((d, literal) :: p) (c :: rest) =
        (decide (c = d) && fitsWithin fuel p rest) := by
      rcases hplain with rfl | ⟨hstar, hmark, hbracket⟩
      · simp [fitsWithin]
      · simp [fitsWithin, hstar, hmark, hbracket]
    rw [hcons, Bool.and_eq_true, decide_eq_true_iff, exists_cons_eq]

end First

/-- The test decides whether a text looks like a pattern, if its bound is above the length of both:
every step takes something from one of them. -/
theorem fitsWithin_iff {fuel : Nat} {p : Pattern} {cs : List Char}
    (h : p.length + cs.length < fuel) : fitsWithin fuel p cs = true ↔ Looks p cs := by
  induction fuel generalizing p cs with
  | zero => exact absurd h (Nat.not_lt_zero _)
  | succ fuel ih =>
    cases p with
    | nil =>
      cases cs with
      | nil => exact iff_of_true rfl .nil
      | cons c rest => exact iff_of_false (by simp [fitsWithin]) nofun
    | cons part p =>
      obtain ⟨d, literal⟩ := part
      have hless : p.length + cs.length < fuel := by
        simp only [List.length_cons] at h
        omega
      by_cases hplain : literal = true ∨ (d ≠ '*' ∧ d ≠ '?' ∧ d ≠ '[')
      · rw [fitsWithin_itself fuel hplain, looks_itself hplain]
        refine exists_congr fun rest => and_congr_right fun hcs => ?_
        refine ih ?_
        rw [hcs, List.length_cons] at hless
        omega
      · -- the part is one of those that stand for something else
        have hspecial : literal = false ∧ (d = '*' ∨ d = '?' ∨ d = '[') := by
          cases literal with
          | true => exact absurd (Or.inl rfl) hplain
          | false =>
            refine ⟨rfl, ?_⟩
            by_contra hnone
            simp only [not_or] at hnone
            exact hplain (Or.inr hnone)
        obtain ⟨rfl, rfl | rfl | rfl⟩ := hspecial
        · rw [looks_star]
          cases cs with
          | nil => simp [fitsWithin, ih hless]
          | cons c rest =>
            simp only [List.length_cons] at hless
            have hrest : (('*', false) :: p).length + rest.length < fuel := by
              simp only [List.length_cons]
              omega
            rw [fitsWithin, Bool.or_eq_true, ih hless, ih hrest, exists_cons]
        · rw [looks_any]
          cases cs with
          | nil => simp [fitsWithin]
          | cons c rest =>
            simp only [List.length_cons] at hless
            rw [fitsWithin, ih (by omega), exists_cons]
        · cases hset : set? p with
          | none =>
            rw [looks_bracket hset]
            cases cs with
            | nil => simp [fitsWithin]
            | cons c rest =>
              simp only [List.length_cons] at hless
              have hrest : p.length + rest.length < fuel := by omega
              rw [exists_cons_eq, fitsWithin, hset, Bool.and_eq_true, decide_eq_true_iff, ih hrest]
          | some found =>
            obtain ⟨turned, ranges, p'⟩ := found
            rw [looks_set hset]
            cases cs with
            | nil => simp [fitsWithin]
            | cons c rest =>
              have hshorter := length_set? hset
              simp only [List.length_cons] at hless
              have hrest : p'.length + rest.length < fuel := by omega
              rw [exists_cons, ← ih hrest, ← Bool.and_eq_true, fitsWithin, hset]

/-- The test decides whether a text looks like a pattern; the bound that it is given is never
reached. -/
theorem fits_iff {p : Pattern} {cs : List Char} : p.fits cs = true ↔ Looks p cs :=
  fitsWithin_iff (Nat.lt_succ_self _)

end Script.Pattern

/-- What a shell has read is divided into a finished script and what follows it: by induction on the
bound, where each round puts one more line in front. -/
theorem finishedLines_append {fuel : Nat} {before bytes script rest : List UInt8}
    (h : finishedLines fuel before bytes = some (script, rest)) :
    before ++ bytes = script ++ rest := by
  induction fuel generalizing before bytes with
  | zero => exact nomatch h
  | succ fuel ih =>
    rw [finishedLines] at h
    have hspan := List.takeWhile_append_dropWhile (p := (· != 10)) (l := bytes)
    rw [List.span_eq_takeWhile_dropWhile] at h
    generalize bytes.takeWhile (· != 10) = line at h hspan
    generalize bytes.dropWhile (· != 10) = behind at h hspan
    cases behind with
    | nil => exact nomatch h
    | cons nl behind =>
      -- a line with its end is added to what is kept, and what stands behind is left over
      have hbytes : before ++ bytes = before ++ line ++ [nl] ++ behind := by
        rw [← hspan]
        simp
      dsimp only at h
      split at h
      · rw [hbytes]
        exact ih h
      · cases h
        exact hbytes

/-- A bound above the length of what was read is never reached, since each round takes a line from
it: a higher one makes no difference. -/
theorem finishedLines_bound {fuel : Nat} {before bytes : List UInt8} (h : bytes.length < fuel) :
    finishedLines (fuel + 1) before bytes = finishedLines fuel before bytes := by
  induction fuel generalizing before bytes with
  | zero => exact absurd h (Nat.not_lt_zero _)
  | succ fuel ih =>
    have hspan := List.takeWhile_append_dropWhile (p := (· != 10)) (l := bytes)
    rw [finishedLines, finishedLines, List.span_eq_takeWhile_dropWhile]
    generalize bytes.takeWhile (· != 10) = line at hspan
    generalize bytes.dropWhile (· != 10) = behind at hspan
    cases behind with
    | nil => rfl
    | cons nl behind =>
      have hshorter : behind.length < fuel := by
        have hlength := congrArg List.length hspan
        simp only [List.length_append, List.length_cons] at hlength
        omega
      dsimp only
      rw [ih hshorter]

end KernelLink.Machine
