import KernelLink.Proofs.Host.TextLines
import KernelLink.Proofs.Text.ReadBack
import KernelLink.Proofs.Wire.SingleLine
import Mathlib.Data.List.Infix
/-!
# Streams of whole lines

A stream that somebody writes line by line. Whoever has seen a front of it has seen as many complete
lines as there are line feeds in that front, and they are the first of the lines that are written.

Main definition:
* `IsLine`: bytes without a line feed, and a line feed.

Main results:
* `splitLines_of_front`: the complete lines in a front of a stream.
* `textLines_grow`: the lines of a stream stay when it grows.
* `Pipe.Accounts.last`: a pipe that such lines are written to.
* `lineOf_encode`: a line of text without controls is read as that text.
-/
namespace KernelLink

namespace Host

open Text (Plain)
open Text.Utf8 (encode)

/-- Bytes without a line feed, and a line feed. -/
def IsLine (l : List UInt8) : Prop := ∃ body, l = body ++ [10] ∧ (10 : UInt8) ∉ body

theorem IsLine.count {l : List UInt8} (h : IsLine l) : l.count 10 = 1 := by
  obtain ⟨body, rfl, hbody⟩ := h
  rw [List.count_append, List.count_eq_zero_of_not_mem hbody]
  rfl

theorem IsLine.splitLines {l : List UInt8} (h : IsLine l) : splitLines l = ([l], []) := by
  obtain ⟨body, rfl, hbody⟩ := h
  exact splitLines_line hbody

/-- A front of some lines is the first of them and a front of the others, or it has no line feed. -/
theorem prefix_line_cases {l xs m : List UInt8} (hl : IsLine l) (h : xs <+: l ++ m) :
    (10 : UInt8) ∉ xs ∨ ∃ ys, xs = l ++ ys ∧ ys <+: m := by
  obtain ⟨body, rfl, hbody⟩ := hl
  rcases List.prefix_or_prefix_of_prefix h (List.prefix_append (body ++ [10]) m) with
    hxs | ⟨ys, rfl⟩
  · rcases List.prefix_concat_iff.mp hxs with rfl | hxs
    · exact Or.inr ⟨[], (List.append_nil _).symm, List.nil_prefix⟩
    · exact Or.inl fun hm => hbody (hxs.subset hm)
  · exact Or.inr ⟨ys, rfl, (List.prefix_append_right_inj _).mp h⟩

/-- The complete lines in a front of a stream of lines are the first of these, as many as the front
has line feeds. Induction on the lines: the front ends within the first, or it goes on behind it. -/
theorem splitLines_of_front {ls : List (List UInt8)} (hls : ∀ l ∈ ls, IsLine l)
    {xs : List UInt8} (h : xs <+: ls.flatten) :
    (splitLines xs).1 = ls.take (xs.count 10) ∧ xs.count 10 ≤ ls.length := by
  induction ls generalizing xs with
  | nil =>
    rw [List.prefix_nil.mp h]
    exact ⟨rfl, Nat.le_refl 0⟩
  | cons l ls ih =>
    have hl : IsLine l := hls l List.mem_cons_self
    rcases prefix_line_cases hl h with hnone | ⟨ys, rfl, hys⟩
    · rw [splitLines_of_not_mem hnone, List.count_eq_zero_of_not_mem hnone]
      exact ⟨rfl, Nat.zero_le _⟩
    · obtain ⟨hlines, hcount⟩ := ih (fun l' hl' => hls l' (List.mem_cons_of_mem l hl')) hys
      rw [splitLines_append ys (by rw [hl.splitLines]), hl.splitLines, List.count_append, hl.count,
        hlines, Nat.add_comm, List.take_succ_cons]
      exact ⟨rfl, by rw [List.length_cons]; omega⟩

/-- A stream has as many complete lines as line feeds, by induction on its bytes. -/
theorem length_splitLines (bs : List UInt8) : (splitLines bs).1.length = bs.count 10 := by
  induction bs with
  | nil => rfl
  | cons b bs ih =>
    rw [splitLines]
    by_cases hb : b = 10
    · rw [if_pos hb, hb, List.count_cons_self, ← ih, List.length_cons]
    · rw [if_neg hb, List.count_cons_of_ne hb, ← ih]
      rcases splitLines bs with ⟨_ | ⟨l, ls⟩, rest⟩
      · rfl
      · rfl

/-- The complete lines stay when a stream grows, since what is added comes behind the part that was
left over. -/
theorem splitLines_grow (as bs : List UInt8) :
    (splitLines as).1 <+: (splitLines (as ++ bs)).1 := by
  induction as with
  | nil => exact List.nil_prefix
  | cons a as ih =>
    rw [List.cons_append, splitLines, splitLines]
    by_cases ha : a = 10
    · rw [if_pos ha, if_pos ha]
      exact List.cons_prefix_cons.mpr ⟨rfl, ih⟩
    · rw [if_neg ha, if_neg ha]
      rcases hs : splitLines as with ⟨_ | ⟨l, ls⟩, rest⟩
      · exact List.nil_prefix
      · rw [hs] at ih
        rcases ht : splitLines (as ++ bs) with ⟨_ | ⟨m, ms⟩, rest'⟩
        · rw [ht] at ih
          exact absurd (List.prefix_nil.mp ih) (List.cons_ne_nil l ls)
        · rw [ht] at ih
          obtain ⟨rfl, htail⟩ := List.cons_prefix_cons.mp ih
          exact List.cons_prefix_cons.mpr ⟨rfl, htail⟩

theorem filled_mono {as bs : List (List UInt8)} (h : as <+: bs) : filled as <+: filled bs := by
  obtain ⟨more, rfl⟩ := h
  rw [filled_append]
  exact List.prefix_append _ _

/-- The lines of a stream stay when it grows or ends. A stream that has ended does not grow any
more, or its last line would change. -/
theorem textLines_grow {ended ended' : Bool} (as : List UInt8) {bs : List UInt8}
    (h : ended = true → bs = [] ∧ ended' = true) :
    textLines ended as <+: textLines ended' (as ++ bs) := by
  cases ended with
  | true =>
    obtain ⟨rfl, rfl⟩ := h rfl
    rw [List.append_nil]
  | false =>
    have hcomplete : textLines false as = filled (splitLines as).1 := List.append_nil _
    rw [hcomplete]
    exact (filled_mono (splitLines_grow as bs)).trans (List.prefix_append _ _)

/-- A stream is its complete lines and the rest: splitting drops no byte and moves none. -/
theorem flatten_splitLines (bs : List UInt8) :
    (splitLines bs).1.flatten ++ (splitLines bs).2 = bs := by
  induction bs with
  | nil => rfl
  | cons b bs ih =>
    rw [splitLines]
    by_cases hb : b = 10
    · rw [if_pos hb]
      exact congrArg (b :: ·) ih
    · rw [if_neg hb]
      rcases hs : splitLines bs with ⟨_ | ⟨l, ls⟩, rest⟩
      · rw [hs] at ih
        exact congrArg (b :: ·) ih
      · rw [hs] at ih
        exact congrArg (b :: ·) ih

/-- A stream of lines has as many line feeds as lines, as each of them has one. -/
theorem count_flatten {ls : List (List UInt8)} (hls : ∀ l ∈ ls, IsLine l) :
    ls.flatten.count 10 = ls.length := by
  induction ls with
  | nil => rfl
  | cons l ls ih =>
    rw [List.flatten_cons, List.count_append, (hls l List.mem_cons_self).count,
      ih fun l' hl' => hls l' (List.mem_cons_of_mem l hl'), List.length_cons, Nat.add_comm]

/-- The lines of a stream of lines are these lines. Induction on them, as splitting begins anew
behind each. -/
theorem splitLines_flatten {ls : List (List UInt8)} (hls : ∀ l ∈ ls, IsLine l) :
    (splitLines ls.flatten).1 = ls := by
  rw [(splitLines_of_front hls List.prefix_rfl).1, count_flatten hls, List.take_length]

/-- There is no rest behind them, as every one of them ends with its line feed. -/
theorem splitLines_eq {ls : List (List UInt8)} (hls : ∀ l ∈ ls, IsLine l) :
    splitLines ls.flatten = (ls, []) := by
  have hall := flatten_splitLines ls.flatten
  rw [splitLines_flatten hls] at hall
  exact Prod.ext (splitLines_flatten hls) (List.append_right_eq_self.mp hall)

/-! ## The last line in a pipe -/

theorem filled_of_inked {ls : List (List UInt8)} (h : ∀ l ∈ ls, (lineOf l).isBlank = false) :
    filled ls = ls.map lineOf := by
  refine List.filter_eq_self.mpr fun d hd => ?_
  obtain ⟨l, hl, rfl⟩ := List.mem_map.mp hd
  rw [h l hl]
  rfl

/-- If all lines but the last were read, the last is what a pipe still holds. -/
theorem Pipe.Accounts.last {p : Pipe} {ls : List (List UInt8)} {l : List UInt8}
    {read : List Delivery} (hls : ∀ m ∈ ls ++ [l], IsLine m ∧ (lineOf m).isBlank = false)
    (h : p.Accounts (ls ++ [l]).flatten read) (hread : read.length = ls.length) :
    p.held ++ p.bytes = l := by
  have hlines : ∀ m ∈ ls ++ [l], IsLine m := fun m hm => (hls m hm).1
  have hfilled : ∀ {n}, (filled ((ls ++ [l]).take n)).length = min n (ls.length + 1) := by
    intro n
    rw [filled_of_inked fun m hm => (hls m (List.mem_of_mem_take hm)).2, List.length_map,
      List.length_take, List.length_append, List.length_singleton]
  obtain ⟨used, htotal, hused, hends⟩ := h
  have hpre : used <+: (ls ++ [l]).flatten := ⟨_, htotal.symm⟩
  obtain ⟨hsplit, hcount⟩ := splitLines_of_front hlines hpre
  rw [List.length_append, List.length_singleton] at hcount
  rcases hends with hends | ⟨hheld, hbytes, -⟩
  · rw [hused, textLines_of_complete true hends, hsplit, hfilled] at hread
    have hc : used.count 10 = ls.length := by omega
    have hflat := flatten_splitLines used
    rw [hsplit, hends, List.append_nil, hc, List.take_left] at hflat
    rw [List.flatten_append, List.flatten_singleton, ← hflat] at htotal
    exact (List.append_cancel_left htotal).symm
  · -- nothing is left, so the last line was read as well
    rw [hheld, hbytes, List.append_nil, List.append_nil] at htotal
    have hall : used.count 10 = ls.length + 1 := by
      rw [← htotal, count_flatten hlines, List.length_append, List.length_singleton]
    have hflat := flatten_splitLines used
    rw [hsplit, hall, List.take_of_length_le (by simp), htotal] at hflat
    have hends : (splitLines used).2 = [] := List.append_right_eq_self.mp hflat
    rw [hused, textLines_of_complete true hends, hsplit, hfilled] at hread
    omega

/-- The one line of a stream that is a line, provided that something stands on it. -/
theorem textLines_of_line {l : List UInt8} (ended : Bool) (hl : IsLine l)
    (hinked : (lineOf l).isBlank = false) : textLines ended l = [lineOf l] := by
  rw [textLines_of_complete ended (by rw [hl.splitLines]), hl.splitLines, filled_singleton, hinked]
  rfl

/-! ## Lines of text -/

/-- Text without controls and a line feed are a line: the line feed is a control, so there is no
other one. -/
theorem isLine_encode {cs : List Char} (h : Plain cs) : IsLine (encode cs ++ [10]) := by
  refine ⟨encode cs, rfl, fun hm => ?_⟩
  have h10 := Text.Utf8.plain_encode h 10 hm
  exact absurd h10 (by decide)

/-- Such a line is read as its text. What has to be seen is that no carriage return goes with the
line feed, and that is a control as well. -/
theorem lineOf_encode {cs : List Char} (h : Plain cs) :
    lineOf (encode cs ++ [10]) = .line (String.ofList cs) := by
  have hend : Pipe.withoutEnd (encode cs ++ [10]) = encode cs := by
    unfold Pipe.withoutEnd
    rw [List.reverse_append, List.reverse_singleton, List.singleton_append]
    split
    · next rest heq =>
      -- the text would end in a carriage return
      have hmem : (13 : UInt8) ∈ encode cs := by
        rw [← List.mem_reverse, (List.cons.inj heq).2]
        exact List.mem_cons_self
      exact absurd (Text.Utf8.plain_encode h 13 hmem) (by decide)
    · next rest heq =>
      rw [← (List.cons.inj heq).2, List.reverse_reverse]
    · next h1 h2 => exact absurd rfl (h2 _)
  unfold lineOf Pipe.deliver
  rw [hend, Text.Utf8.decode_encode]

end Host

/-- A document on a line is a line, since a written document holds no control. -/
theorem Json.isLine_lineBytes (v : Json) : Host.IsLine v.lineBytes :=
  Host.isLine_encode v.plain_chars

/-- It is read as the document, since a written document neither has a line end nor ends in a
carriage return. -/
theorem Json.lineOf_lineBytes (v : Json) : Host.lineOf v.lineBytes = .line v.text :=
  Host.lineOf_encode v.plain_chars

/-- A request is a line: its document on it, and the line feed. -/
theorem Request.isLine (r : Request) : Host.IsLine (Text.Utf8.bytes r.line) := by
  rw [r.bytes_line_eq]
  exact r.toJson.isLine_lineBytes

/-- It is read as its document, whole and without its line feed. -/
theorem Request.lineOf_line (r : Request) :
    Host.lineOf (Text.Utf8.bytes r.line) = .line r.toJson.text := by
  rw [r.bytes_line_eq]
  exact r.toJson.lineOf_lineBytes

end KernelLink
