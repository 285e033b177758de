import KernelLink.Host.Pipe
import KernelLink.Text.Blank
import Mathlib.Data.List.TakeDrop
import Mathlib.Data.List.TakeWhile
/-!
# The lines of a stream, and reading them from a pipe

A reader of a pipe sees a stream in pieces: some bytes are still on their way, some are held back
because their line is not complete. Here the stream is looked at as a whole. Its lines are those
that end in a line feed and, once the writer is gone, the unfinished rest. Whatever the pieces were,
the lines that were read followed by the lines that can still be read are the lines of the stream.

Main definitions:
* `splitLines`, `textLines`: the lines of a stream, and those that are not blank.
* `Pipe.Accounts`: a pipe, all bytes ever written to it, and the lines that were read from it.

Main results:
* `Pipe.Accounts.put`, `.fill`, `.next`: writing and reading keep the account.
* `Pipe.Accounts.textLines_eq`: what was read and what is left are the lines of the stream.
* `Pipe.next_cases`, `Pipe.next_of_textLines`: what a reader takes next.
-/
namespace KernelLink.Host

/-! ## Lines of a stream -/

/-- The complete lines at the front of some bytes, each with its line feed, and the rest. -/
def splitLines : List UInt8 → List (List UInt8) × List UInt8
  | [] => ([], [])
  | b :: bs =>
    if b = 10 then ([b] :: (splitLines bs).1, (splitLines bs).2)
    else
      match splitLines bs with
      | ([], rest) => ([], b :: rest)
      | (l :: ls, rest) => ((b :: l) :: ls, rest)

/-- Does reading give nothing but blanks? -/
def Delivery.isBlank : Delivery → Bool
  | .line text => Text.isBlankText text
  | .unreadable _ => false
  | .ended => true

/-- What reading gives for a line with its line end. -/
def lineOf (bytes : List UInt8) : Delivery := Pipe.deliver (Pipe.withoutEnd bytes)

/-- What reading gives for lines, without the blank ones. -/
def filled (ls : List (List UInt8)) : List Delivery :=
  (ls.map lineOf).filter fun line => !line.isBlank

/-- The lines of a stream that are not blank. The unfinished rest is a line if the stream has
ended. -/
def textLines (ended : Bool) (bytes : List UInt8) : List Delivery :=
  filled (splitLines bytes).1 ++
    if ended && !(splitLines bytes).2.isEmpty then filled [(splitLines bytes).2] else []

theorem filled_append (as bs : List (List UInt8)) : filled (as ++ bs) = filled as ++ filled bs := by
  unfold filled
  rw [List.map_append, List.filter_append]

theorem filled_singleton (l : List UInt8) :
    filled [l] = if (lineOf l).isBlank then [] else [lineOf l] := by
  unfold filled
  cases h : (lineOf l).isBlank <;> simp [h]

/-- Behind complete lines splitting begins anew. Induction on the bytes of these lines. -/
theorem splitLines_append {as : List UInt8} (bs : List UInt8) (h : (splitLines as).2 = []) :
    splitLines (as ++ bs) = ((splitLines as).1 ++ (splitLines bs).1, (splitLines bs).2) := by
  induction as with
  | nil => rfl
  | cons a as ih =>
    rw [List.cons_append]
    rw [splitLines] at h ⊢
    by_cases ha : a = 10
    · rw [if_pos ha] at h ⊢
      rw [ih h, splitLines, if_pos ha]
      rfl
    · rw [if_neg ha] at h ⊢
      rcases hs : splitLines as with ⟨_ | ⟨l, ls⟩, rest⟩
      · rw [hs] at h
        exact absurd h (List.cons_ne_nil a rest)
      · rw [hs] at h ih
        rw [ih h, splitLines, if_neg ha, hs]
        rfl

/-- Bytes without a line feed are no complete line: all of them are left over, by induction on them.
-/
theorem splitLines_of_not_mem {bs : List UInt8} (h : (10 : UInt8) ∉ bs) :
    splitLines bs = ([], bs) := by
  induction bs with
  | nil => rfl
  | cons b bs ih =>
    have hb : b ≠ 10 := fun e => h (e ▸ List.mem_cons_self)
    have hbs : (10 : UInt8) ∉ bs := fun m => h (List.mem_cons_of_mem _ m)
    rw [splitLines, if_neg hb, ih hbs]

/-- Such bytes and a line feed are one line, with nothing left over behind it. -/
theorem splitLines_line {bs : List UInt8} (h : (10 : UInt8) ∉ bs) :
    splitLines (bs ++ [10]) = ([bs ++ [10]], []) := by
  induction bs with
  | nil => rfl
  | cons b bs ih =>
    have hb : b ≠ 10 := fun e => h (e ▸ List.mem_cons_self)
    have hbs : (10 : UInt8) ∉ bs := fun m => h (List.mem_cons_of_mem _ m)
    rw [List.cons_append, splitLines, if_neg hb, ih hbs]

/-- The lines of a stream that ends with a line feed are its complete ones, whether or not more is
to come. -/
theorem textLines_of_complete {as : List UInt8} (ended : Bool) (h : (splitLines as).2 = []) :
    textLines ended as = filled (splitLines as).1 := by
  unfold textLines
  rw [h, List.isEmpty_nil, Bool.not_true, Bool.and_false]
  exact List.append_nil _

/-- The lines of a stream whose front is complete lines: those of the front, and those of what
stands behind it. -/
theorem textLines_append {as : List UInt8} (ended : Bool) (bs : List UInt8)
    (h : (splitLines as).2 = []) :
    textLines ended (as ++ bs) = filled (splitLines as).1 ++ textLines ended bs := by
  unfold textLines
  rw [splitLines_append bs h]
  simp only [filled_append, List.append_assoc]

/-! ## Reading from a pipe -/

namespace Pipe

/-- Reading a line takes it from the front of what is held, with its line feed or, at the end of the
stream, without. -/
theorem nextLine?_cases {p q : Pipe} {d : Delivery} (h : p.nextLine? = some (d, q)) :
    (d = .ended ∧ p.held = [] ∧ p.bytes = [] ∧ p.writing = false) ∨
    ∃ l, l ≠ [] ∧ p = { q with held := l ++ q.held } ∧ d = lineOf l ∧
      (splitLines l = ([l], []) ∨
        splitLines l = ([], l) ∧ q.held = [] ∧ q.bytes = [] ∧ q.writing = false) := by
  unfold nextLine? takeLine? at h
  have hsplit := List.takeWhile_append_dropWhile (p := fun b : UInt8 => b != 10) (l := p.held)
  have hnone : (10 : UInt8) ∉ p.held.takeWhile (fun b => b != 10) := by
    intro hm
    simpa using List.mem_takeWhile_imp hm
  rw [List.span_eq_takeWhile_dropWhile] at h
  rcases hrest : p.held.dropWhile (fun b => b != 10) with _ | ⟨nl, rest⟩
  · -- no line feed is held: a line is given only at the end of the stream
    rw [hrest] at h hsplit
    simp only at h
    split at h
    · simp at h
    · next hend =>
      simp only [Bool.or_eq_true, Bool.not_eq_true', not_or, Bool.not_eq_true,
        Bool.not_eq_false, List.isEmpty_iff] at hend
      simp only [Option.map_some, Option.some.injEq, Prod.mk.injEq] at h
      obtain ⟨hd, hq⟩ := h
      rw [List.append_nil] at hsplit
      rw [hsplit] at hd hnone
      by_cases hheld : p.held = []
      · left
        simp only [hheld, List.isEmpty_nil, if_true] at hd
        exact ⟨hd.symm, hheld, hend.2, hend.1⟩
      · right
        have hempty : p.held.isEmpty = false := by simpa using hheld
        rw [hempty] at hd
        subst hq
        refine ⟨p.held, hheld, ?_, hd.symm, Or.inr ⟨splitLines_of_not_mem hnone, rfl, ?_⟩⟩
        · simp
        · exact ⟨hend.2, hend.1⟩
  · -- the front up to the first line feed is a line
    rw [hrest] at h hsplit
    simp only [Option.map_some, Option.some.injEq, Prod.mk.injEq] at h
    obtain ⟨hd, hq⟩ := h
    have hnl : nl = 10 := by
      have := List.head?_dropWhile_not (fun b : UInt8 => b != 10) p.held
      rw [hrest] at this
      simpa using this
    subst hnl
    right
    refine ⟨p.held.takeWhile (fun b => b != 10) ++ [10], by simp, ?_, ?_,
      Or.inl (splitLines_line hnone)⟩
    · subst hq
      simp only [List.append_assoc, List.singleton_append]
      rw [hsplit]
    · have hne : (p.held.takeWhile (fun b => b != 10) ++ [10]).isEmpty = false := by simp
      rw [hne] at hd
      exact hd.symm

/-- Reading a line leaves the writing end as it is; only the end of the stream is read when that end
is shut. -/
theorem nextLine?_writing {p q : Pipe} {d : Delivery} (h : p.nextLine? = some (d, q))
    (hd : d ≠ .ended) : q.writing = p.writing := by
  rcases nextLine?_cases h with ⟨hended, -⟩ | ⟨l, -, hp, -⟩
  · exact absurd hended hd
  · rw [hp]

/-- A reader that has no complete line takes bytes over and loses none. -/
theorem fill?_cases {p q : Pipe} (h : p.fill? = some q) :
    q.held ++ q.bytes = p.held ++ p.bytes ∧ p.bytes ≠ [] ∧ q.writing = p.writing := by
  unfold fill? at h
  split at h
  · simp at h
  · next hb =>
    rw [Option.some.injEq] at h
    subst h
    refine ⟨?_, by simpa using hb, rfl⟩
    show p.held ++ p.bytes.take readSize ++ p.bytes.drop readSize = _
    rw [List.append_assoc, List.take_append_drop]

/-! ## The account of a pipe -/

/-- All bytes ever written to a pipe are those of the lines that were read from it, and what it
still holds. The last line read may have been the unfinished one at the end of the stream. -/
def Accounts (p : Pipe) (total : List UInt8) (read : List Delivery) : Prop :=
  ∃ used, total = used ++ (p.held ++ p.bytes) ∧ read = Host.textLines true used ∧
    ((splitLines used).2 = [] ∨ p.held = [] ∧ p.bytes = [] ∧ p.writing = false)

namespace Accounts

variable {p q : Pipe} {total : List UInt8} {read : List Delivery}

/-- At the beginning nothing was read, and all that was written is in the pipe. -/
theorem start (p : Pipe) : p.Accounts (p.held ++ p.bytes) [] :=
  ⟨[], rfl, rfl, Or.inl rfl⟩

/-- Writing into an open pipe adds to what was written, and to what can still be read. -/
theorem put (h : p.Accounts total read) (bs : List UInt8) (hw : p.writing = true) :
    (p.put bs).Accounts (total ++ bs) read := by
  obtain ⟨used, htotal, hread, hused⟩ := h
  refine ⟨used, ?_, hread, ?_⟩
  · rw [htotal]
    show used ++ (p.held ++ p.bytes) ++ bs = used ++ (p.held ++ (p.bytes ++ bs))
    simp only [List.append_assoc]
  · rcases hused with hused | ⟨-, -, hend⟩
    · exact Or.inl hused
    · rw [hw] at hend
      exact absurd hend (by decide)

/-- Closing the writing end changes no byte; from now on an unfinished line counts. -/
theorem closeWriting (h : p.Accounts total read) : p.closeWriting.Accounts total read := by
  obtain ⟨used, htotal, hread, hused⟩ := h
  refine ⟨used, htotal, hread, ?_⟩
  rcases hused with hused | ⟨hheld, hbytes, -⟩
  · exact Or.inl hused
  · exact Or.inr ⟨hheld, hbytes, rfl⟩

/-- Taking bytes over moves them from one part of the pipe into the other. -/
theorem fill (h : p.Accounts total read) (hq : p.fill? = some q) : q.Accounts total read := by
  obtain ⟨used, htotal, hread, hused⟩ := h
  obtain ⟨hsame, hbytes, -⟩ := fill?_cases hq
  refine ⟨used, by rw [hsame]; exact htotal, hread, ?_⟩
  rcases hused with hused | ⟨-, hnone, -⟩
  · exact Or.inl hused
  · exact absurd hnone hbytes

/-- Reading a line moves it from what is left to what was read. -/
theorem next {d : Delivery} (h : p.Accounts total read) (hq : p.nextLine? = some (d, q))
    (hd : d ≠ .ended) :
    q.Accounts total (read ++ if d.isBlank then [] else [d]) := by
  obtain ⟨used, htotal, hread, hused⟩ := h
  rcases nextLine?_cases hq with ⟨hended, -⟩ | ⟨l, hl, hp, hline, hsplit⟩
  · exact absurd hended hd
  have hheld : p.held = l ++ q.held := by rw [hp]
  have hbytes : p.bytes = q.bytes := by rw [hp]
  -- nothing is read behind an unfinished line
  have hcomplete : (splitLines used).2 = [] := by
    rcases hused with hused | ⟨hnone, -⟩
    · exact hused
    · rw [hheld] at hnone
      exact absurd (List.append_eq_nil_iff.mp hnone).1 hl
  refine ⟨used ++ l, ?_, ?_, ?_⟩
  · rw [htotal, hheld, hbytes]
    simp only [List.append_assoc]
  · rw [textLines_append true l hcomplete, hread, textLines_of_complete true hcomplete, hline,
      ← filled_singleton]
    rcases hsplit with hs | ⟨hs, -⟩
    · simp [Host.textLines, hs]
    · simp [Host.textLines, hs, hl, show filled [] = [] from rfl]
  · rw [splitLines_append l hcomplete]
    rcases hsplit with hs | ⟨hs, hend⟩
    · rw [hs]
      exact Or.inl rfl
    · exact Or.inr hend

/-- What was read, followed by what can still be read, are the lines of the stream. -/
theorem textLines_eq (h : p.Accounts total read) :
    Host.textLines (!p.writing) total =
      read ++ Host.textLines (!p.writing) (p.held ++ p.bytes) := by
  obtain ⟨used, htotal, hread, hused | ⟨hheld, hbytes, hend⟩⟩ := h
  · rw [htotal, textLines_append _ _ hused, hread, textLines_of_complete true hused]
  · rw [htotal, hheld, hbytes, hend, hread]
    simp [Host.textLines, splitLines, show filled [] = [] from rfl]

/-- The next line that can be read is the next line of the stream. -/
theorem next_eq {d : Delivery} (h : p.Accounts total read) (hq : p.nextLine? = some (d, q))
    (hd : d.isBlank = false) :
    (Host.textLines (!p.writing) total)[read.length]? = some d := by
  have hne : d ≠ .ended := by
    intro e
    rw [e] at hd
    exact absurd hd (by decide)
  have hw := nextLine?_writing hq hne
  have hnext := (h.next hq hne).textLines_eq
  rw [hw, hd] at hnext
  rw [hnext]
  simp

end Accounts

/-! ## What can be read next -/

variable {p q : Pipe}

/-- If a reader can take neither a line nor more bytes, no line has come, and more may come. -/
theorem textLines_of_nothing (hline : p.nextLine? = none) (hfill : p.fill? = none) :
    p.writing = true ∧ Host.textLines (!p.writing) (p.held ++ p.bytes) = [] := by
  have hbytes : p.bytes = [] := by
    unfold fill? at hfill
    split at hfill
    · next hempty => exact List.isEmpty_iff.mp hempty
    · exact absurd hfill (Option.some_ne_none _)
  unfold nextLine? takeLine? at hline
  rw [Option.map_eq_none_iff, List.span_eq_takeWhile_dropWhile, hbytes] at hline
  split at hline
  · exact absurd hline (Option.some_ne_none _)
  · next line rest hspan =>
    obtain ⟨-, hrest⟩ := Prod.mk.inj hspan
    have hnone : (10 : UInt8) ∉ p.held := by
      intro hmem
      have hpass := List.dropWhile_eq_nil_iff.mp hrest 10 hmem
      exact absurd hpass (by decide)
    split at hline
    · next hopen =>
      have hwriting : p.writing = true := by simpa using hopen
      refine ⟨hwriting, ?_⟩
      rw [hwriting, hbytes, List.append_nil, Host.textLines, splitLines_of_not_mem hnone]
      rfl
    · exact absurd hline (Option.some_ne_none _)

/-- At the end of the output there are no lines: the writer is gone, nothing is held back and
nothing is on its way. -/
theorem textLines_of_ended (h : p.nextLine? = some (.ended, q)) :
    p.writing = false ∧ p.held = [] ∧ p.bytes = [] := by
  rcases nextLine?_cases h with ⟨-, hheld, hbytes, hw⟩ | ⟨l, -, -, hd, -⟩
  · exact ⟨hw, hheld, hbytes⟩
  · have hne : lineOf l ≠ .ended := by
      unfold lineOf deliver
      split <;> simp
    exact absurd hd.symm hne

/-- A reader makes way for later lines: it takes more bytes, or a line that is blank. -/
def Passes (p q : Pipe) : Prop :=
  p.nextLine? = none ∧ p.fill? = some q ∨
    ∃ text, p.nextLine? = some (.line text, q) ∧ Text.isBlankText text = true

/-- Making way for later lines reads no line: bytes that are taken over stay readable, and blank
lines never count. -/
theorem Accounts.passes {total : List UInt8} {read : List Delivery} (h : p.Accounts total read)
    (hq : p.Passes q) : q.Accounts total read := by
  rcases hq with ⟨-, hfill⟩ | ⟨text, hread, hblank⟩
  · exact h.fill hfill
  · have hnext := h.next hread (by simp)
    rwa [show (Delivery.line text).isBlank = true from hblank, if_pos rfl, List.append_nil] at hnext

/-- Reading a line that is not blank adds it to what was read. -/
theorem Accounts.takes {d : Delivery} {total : List UInt8} {read : List Delivery}
    (h : p.Accounts total read) (hq : p.nextLine? = some (d, q)) (hd : d.isBlank = false) :
    q.Accounts total (read ++ [d]) := by
  have hne : d ≠ .ended := by
    rintro rfl
    exact absurd hd (by decide)
  have hnext := h.next hq hne
  rwa [hd] at hnext

/-- Bytes that are held have been moved once, and the others still have to be: taking bytes over
leaves less to do. -/
theorem fill?_less (h : p.fill? = some q) :
    q.held.length + 2 * q.bytes.length < p.held.length + 2 * p.bytes.length := by
  obtain ⟨hsame, hbytes, -⟩ := fill?_cases h
  have hlength := congrArg List.length hsame
  have hless : q.bytes.length < p.bytes.length := by
    unfold fill? at h
    rw [if_neg (by simpa using hbytes), Option.some.injEq] at h
    have hsize : 0 < readSize := by decide
    have hpos := List.length_pos_iff.mpr hbytes
    rw [← h, List.length_drop]
    omega
  rw [List.length_append, List.length_append] at hlength
  omega

/-- Reading a line makes it less as well, unless it is the end that is read, since a line has at
least its line feed. -/
theorem nextLine?_less {d : Delivery} (h : p.nextLine? = some (d, q)) (hd : d ≠ .ended) :
    q.held.length + 2 * q.bytes.length < p.held.length + 2 * p.bytes.length := by
  rcases nextLine?_cases h with ⟨hended, -⟩ | ⟨l, hl, hp, -⟩
  · exact absurd hended hd
  · have hpos := List.length_pos_iff.mpr hl
    rw [hp]
    show q.held.length + 2 * q.bytes.length < (l ++ q.held).length + 2 * q.bytes.length
    rw [List.length_append]
    omega

/-- What a reader does next: nothing can be read yet, or nothing any more, or it takes the first
line that is not blank, or it makes way for later lines and loses none. -/
theorem next_cases (p : Pipe) :
    (p.nextLine? = none ∧ p.fill? = none) ∨
    (∃ q, p.nextLine? = some (.ended, q)) ∨
    (∃ d q, p.nextLine? = some (d, q) ∧ d.isBlank = false ∧
      Host.textLines (!p.writing) (p.held ++ p.bytes) =
        d :: Host.textLines (!q.writing) (q.held ++ q.bytes)) ∨
    ∃ q, p.Passes q ∧ q.writing = p.writing ∧
      Host.textLines (!q.writing) (q.held ++ q.bytes) =
        Host.textLines (!p.writing) (p.held ++ p.bytes) ∧
      q.held.length + 2 * q.bytes.length < p.held.length + 2 * p.bytes.length := by
  cases hnext : p.nextLine? with
  | none =>
    cases hfill : p.fill? with
    | none => exact Or.inl ⟨rfl, rfl⟩
    | some q =>
      obtain ⟨hsame, -, hw⟩ := fill?_cases hfill
      exact Or.inr (Or.inr (Or.inr ⟨q, Or.inl ⟨hnext, hfill⟩, hw, by rw [hsame, hw],
        fill?_less hfill⟩))
  | some next =>
    obtain ⟨x, q⟩ := next
    -- a line that is read is blank, and then passed over, or it is the next that counts
    by_cases hne : x = .ended
    · exact Or.inr (Or.inl ⟨q, by rw [hne]⟩)
    have hlines := ((Accounts.start p).next hnext hne).textLines_eq
    rw [nextLine?_writing hnext hne] at hlines
    cases hx : x.isBlank with
    | false =>
      rw [hx] at hlines
      refine Or.inr (Or.inr (Or.inl ⟨x, q, rfl, hx, ?_⟩))
      rw [hlines, nextLine?_writing hnext hne]
      rfl
    | true =>
      rw [hx] at hlines
      refine Or.inr (Or.inr (Or.inr ⟨q, Or.inr ?_, nextLine?_writing hnext hne, ?_,
        nextLine?_less hnext hne⟩))
      · cases x with
        | line text => exact ⟨text, hnext, hx⟩
        | unreadable fault => exact absurd hx Bool.false_ne_true
        | ended => exact absurd rfl hne
      · rw [nextLine?_writing hnext hne]
        exact hlines.symm

/-- Which line a reader takes next, if one has come that is not blank: that one, or it makes way for
it first. -/
theorem next_of_textLines {d : Delivery} {ds : List Delivery}
    (h : Host.textLines (!p.writing) (p.held ++ p.bytes) = d :: ds) :
    (∃ q, p.nextLine? = some (d, q) ∧ d.isBlank = false) ∨
    ∃ q, p.Passes q ∧ Host.textLines (!q.writing) (q.held ++ q.bytes) = d :: ds ∧
      q.held.length + 2 * q.bytes.length < p.held.length + 2 * p.bytes.length := by
  rcases p.next_cases with ⟨hnext, hfill⟩ | ⟨q, hnext⟩ | ⟨x, q, hnext, hx, hlines⟩ |
    ⟨q, hpass, -, hlines, hless⟩
  · rw [(textLines_of_nothing hnext hfill).2] at h
    exact absurd h.symm (List.cons_ne_nil d ds)
  · obtain ⟨hw, hheld, hbytes⟩ := textLines_of_ended hnext
    rw [hw, hheld, hbytes] at h
    exact absurd h.symm (List.cons_ne_nil d ds)
  · obtain ⟨rfl, -⟩ := List.cons.inj (hlines.symm.trans h)
    exact Or.inl ⟨q, hnext, hx⟩
  · exact Or.inr ⟨q, hpass, hlines.trans h, hless⟩

end Pipe
end KernelLink.Host
