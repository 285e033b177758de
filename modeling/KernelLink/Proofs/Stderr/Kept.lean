import KernelLink.Proofs.Stderr.Newest
import KernelLink.Proofs.Text.Replaced
import Mathlib.Data.List.Induction
/-!
# What a buffer keeps and gives

Bytes are added to a buffer, and now and then its text is taken or it is cleared. Whatever the
order, it keeps the newest of the bytes that were added since it was emptied last, and its text is
what these bytes read as together. So it makes no difference in which pieces they came, even if a
cut goes through a character, and no byte is given twice.

Main definitions:
* `Use`, `Buffer.after`: what is done to a buffer.
* `Use.added`, `Use.since`: what was added, in all and since the buffer was emptied last.
* `Buffer.taken`, `Buffer.texts`: what was taken.
* `Cuts`: reads that are the pieces of a stream.

Main results:
* `Buffer.append_append`, `Buffer.append_pieces`: pieces or the whole.
* `Buffer.bytes_after`: what is kept.
* `Buffer.taken_sublist`: nothing is given twice or out of order.
* `Buffer.capture_cuts`: a stream leaves the same behind, however it is read.
* `Buffer.cuts_readsOfChunk`: a stream that is there at once is read in such pieces.
* `Buffer.exact_after`: all of this for every use of a buffer.
* `Buffer.take_stray`: what is taken if the bytes are not UTF-8.
-/
namespace KernelLink.Stderr

/-! ## Uses of a buffer -/

/-- What is done to a buffer. -/
inductive Use where
  /-- Bytes are added. -/
  | append (chunk : List UInt8)
  /-- The text is taken. -/
  | take
  /-- What is kept is thrown away. -/
  | clear
  deriving Repr, DecidableEq

/-- All bytes that were added. -/
def Use.added (uses : List Use) : List UInt8 :=
  uses.flatMap fun | .append chunk => chunk | .take | .clear => []

/-- The bytes that were added since the buffer was emptied last. -/
def Use.since (uses : List Use) : List UInt8 :=
  uses.foldl (fun bytes => fun | .append chunk => bytes ++ chunk | .take | .clear => []) []

/-- The reads are pieces of the stream, as large as a read can be, and behind the last of them the
stream ends or fails. -/
def Cuts (stream : List UInt8) (reads : List Buffer.Read) : Prop :=
  ∃ (chunks : List (List UInt8)) (last : Buffer.Read), reads = chunks.map .data ++ [last] ∧
    (∀ chunk, last ≠ .data chunk) ∧
    (∀ chunk ∈ chunks, chunk ≠ [] ∧ chunk.length ≤ Buffer.readSize) ∧ chunks.flatten = stream

/-- The text is the other without the blanks at its end. -/
def Trims (s text : String) : Prop :=
  (∃ blanks, s.toList = text.toList ++ blanks ∧ ∀ c ∈ blanks, Text.isBlank c = true) ∧
    ∀ front blanks, text.toList = front ++ blanks → (∀ c ∈ blanks, Text.isBlank c = true) →
      blanks = []

/-- Trimming takes off the longest row of blanks at the end, and nothing else. -/
theorem trims_trimmedEnd (s : String) : Trims s (Text.trimmedEnd s) := by
  have htrimmed : (Text.trimmedEnd s).toList = Text.trimEnd s.toList := String.toList_ofList
  rw [Trims, htrimmed]
  refine ⟨⟨s.toList.rtakeWhile Text.isBlank, ?_, fun c hc => List.mem_rtakeWhile_imp hc⟩,
    fun front blanks => Text.eq_nil_of_trimEnd⟩
  exact (List.rdropWhile_append_rtakeWhile (p := Text.isBlank)).symm

namespace Buffer

/-- One use of the buffer. -/
def use (b : Buffer) : Use → Buffer
  | .append chunk => b.append chunk
  | .take => b.take.2
  | .clear => b.clear

/-- The buffer after some uses. -/
def after (b : Buffer) (uses : List Use) : Buffer := uses.foldl use b

/-- What was kept whenever the text was taken. -/
def taken (b : Buffer) : List Use → List (List UInt8)
  | [] => []
  | u :: uses => (if u = .take then [b.bytes] else []) ++ (b.use u).taken uses

/-- The texts that were taken. -/
def texts (b : Buffer) : List Use → List String
  | [] => []
  | u :: uses => (if u = .take then [b.take.1] else []) ++ (b.use u).texts uses

/-- Uses in two parts: the later ones begin with the buffer that the earlier ones left. -/
theorem after_append (b : Buffer) (past uses : List Use) :
    b.after (past ++ uses) = (b.after past).after uses := List.foldl_append

/-- One more use of the buffer, as the inductions below take it. -/
theorem after_concat (b : Buffer) (past : List Use) (u : Use) :
    b.after (past ++ [u]) = (b.after past).use u := b.after_append past [u]

/-- One more use adds what it takes, if it is one that takes. Induction on the uses before it. -/
theorem taken_concat (b : Buffer) (past : List Use) (u : Use) :
    b.taken (past ++ [u]) =
      b.taken past ++ if u = .take then [(b.after past).bytes] else [] := by
  induction past generalizing b with
  | nil => exact List.append_nil _
  | cons first past ih =>
    rw [List.cons_append, taken, taken, ih, List.append_assoc]
    rfl

/-- The texts are those of what was kept. -/
theorem texts_eq (b : Buffer) (uses : List Use) :
    b.texts uses =
      (b.taken uses).map fun bytes => Text.trimmedEnd (Text.Utf8.lossy bytes) := by
  induction uses generalizing b with
  | nil => rfl
  | cons u uses ih =>
    rw [texts, taken, ih, List.map_append]
    cases u <;> rfl

theorem texts_append (b : Buffer) (past uses : List Use) :
    b.texts (past ++ uses) = b.texts past ++ (b.after past).texts uses := by
  induction past generalizing b with
  | nil => rfl
  | cons u past ih =>
    rw [List.cons_append, texts, texts, ih, List.append_assoc]
    rfl

/-- While bytes are only added, nothing is taken. -/
theorem texts_pieces (b : Buffer) (chunks : List (List UInt8)) :
    b.texts (chunks.map .append) = [] := by
  induction chunks generalizing b with
  | nil => rfl
  | cons chunk chunks ih => exact ih (b.append chunk)

/-! ## Pieces or the whole -/

@[simp] theorem append_nil (b : Buffer) : b.append [] = b := rfl

/-- Adding bytes keeps the newest of all and tells whoever waits; adding none does nothing. -/
theorem append_of_ne_nil (b : Buffer) {chunk : List UInt8} (h : chunk ≠ []) :
    b.append chunk = ⟨b.limit, newest b.limit (b.bytes ++ chunk), true⟩ := by
  have hfilled : ¬ chunk.isEmpty = true := by simpa using h
  exact if_neg hfilled

/-- Two pieces leave the same behind as both together. -/
theorem append_append (b : Buffer) (first second : List UInt8) :
    (b.append first).append second = b.append (first ++ second) := by
  by_cases hfirst : first = []
  · rw [hfirst]
    rfl
  by_cases hsecond : second = []
  · rw [hsecond, List.append_nil, append_nil]
  have hboth : first ++ second ≠ [] := List.append_ne_nil_of_left_ne_nil hfirst second
  rw [append_of_ne_nil b hfirst, append_of_ne_nil b hboth, append_of_ne_nil _ hsecond]
  dsimp only
  rw [newest_append, List.append_assoc]

/-- So do any number of pieces, by induction on them: dropping early and dropping late come to the
same. -/
theorem append_pieces (b : Buffer) (chunks : List (List UInt8)) :
    b.after (chunks.map .append) = b.append chunks.flatten := by
  induction chunks generalizing b with
  | nil => rfl
  | cons chunk chunks ih =>
    rw [List.flatten_cons, ← append_append]
    exact ih (b.append chunk)

/-! ## What is kept -/

theorem limit_use (b : Buffer) (u : Use) : (b.use u).limit = b.limit := by
  cases u with
  | append chunk =>
    by_cases h : chunk = []
    · rw [h]
      rfl
    · show (b.append chunk).limit = b.limit
      rw [append_of_ne_nil b h]
  | take => rfl
  | clear => rfl

theorem limit_after (b : Buffer) (uses : List Use) : (b.after uses).limit = b.limit := by
  induction uses using List.reverseRecOn with
  | nil => rfl
  | append_singleton past u ih => rw [after_concat, limit_use, ih]

/-- Bytes that are added join those that are kept, as far as there is room. -/
theorem bytes_append (b : Buffer) (h : b.Fits) (chunk : List UInt8) :
    (b.append chunk).bytes = newest b.limit (b.bytes ++ chunk) := by
  by_cases hc : chunk = []
  · rw [hc, append_nil, List.append_nil, newest_of_le h]
  · exact congrArg bytes (append_of_ne_nil b hc)

theorem fits_use (b : Buffer) (h : b.Fits) (u : Use) : (b.use u).Fits := by
  unfold Fits
  rw [limit_use]
  cases u with
  | append chunk =>
    show (b.append chunk).bytes.length ≤ b.limit
    rw [bytes_append b h, length_newest]
    exact Nat.min_le_left _ _
  | take => exact Nat.zero_le _
  | clear => exact Nat.zero_le _

theorem fits_after (b : Buffer) (h : b.Fits) (uses : List Use) : (b.after uses).Fits := by
  induction uses using List.reverseRecOn with
  | nil => exact h
  | append_singleton past u ih =>
    rw [after_concat]
    exact fits_use _ ih u

/-- The buffer keeps the newest of the bytes that were added since it was emptied last. -/
theorem bytes_after (limit : Nat) (uses : List Use) :
    ((new limit).after uses).bytes = newest (max limit 1) (Use.since uses) := by
  induction uses using List.reverseRecOn with
  | nil => exact List.drop_nil.symm
  | append_singleton past u ih =>
    have hlimit : ((new limit).after past).limit = max limit 1 := limit_after _ past
    unfold Use.since at ih ⊢
    rw [after_concat, List.foldl_append]
    cases u with
    | append chunk =>
      show (((new limit).after past).append chunk).bytes = _
      rw [bytes_append _ (fits_after _ (fits_new limit) past), hlimit, ih, newest_append]
      rfl
    | take => exact List.drop_nil.symm
    | clear => exact List.drop_nil.symm

/-! ## What is given -/

theorem added_concat (past : List Use) (u : Use) :
    Use.added (past ++ [u]) = Use.added past ++ Use.added [u] := List.flatMap_append

/-- What was taken, one after the other, and what is kept stand in this order among the bytes that
were added, and no byte was taken twice. -/
theorem taken_sublist (b : Buffer) (h : b.bytes = []) (hfits : b.Fits) (uses : List Use) :
    ((b.taken uses).flatten ++ (b.after uses).bytes).Sublist (Use.added uses) := by
  induction uses using List.reverseRecOn with
  | nil =>
    show ([] ++ b.bytes).Sublist []
    rw [h]
    exact List.Sublist.refl []
  | append_singleton past u ih =>
    rw [taken_concat, after_concat, added_concat]
    cases u with
    | append chunk =>
      -- what had to make room is lost, and nothing else changes
      have hkept : (((b.after past).append chunk).bytes).Sublist
          ((b.after past).bytes ++ chunk) := by
        rw [bytes_append _ (fits_after b hfits past)]
        exact (newest_suffix _ _).sublist
      have hadded : Use.added [.append chunk] = chunk := List.append_nil chunk
      rw [if_neg (by simp), List.append_nil, hadded]
      refine (hkept.append_left _).trans ?_
      rw [← List.append_assoc]
      exact ih.append_right chunk
    | take =>
      -- what was kept is taken, and nothing is kept
      have hnone : ((b.after past).use .take).bytes = [] := rfl
      rw [if_pos rfl, hnone, List.flatten_append, List.flatten_singleton, List.append_nil]
      exact ih.trans (List.sublist_append_left _ _)
    | clear =>
      have hnone : ((b.after past).use .clear).bytes = [] := rfl
      rw [if_neg (by simp), hnone, List.append_nil, List.append_nil]
      exact ((List.sublist_append_left _ _).trans ih).trans (List.sublist_append_left _ _)

/-! ## Streams -/

/-- Reading pieces until a stream ends or fails adds them. -/
theorem capture_pieces (b : Buffer) (chunks : List (List UInt8)) {last : Read}
    (hlast : ∀ chunk, last ≠ .data chunk) :
    b.capture (chunks.map .data ++ [last]) = (b.after (chunks.map .append)).notify := by
  induction chunks generalizing b with
  | nil =>
    cases last with
    | data chunk => exact absurd rfl (hlast chunk)
    | ended => rfl
    | failed => rfl
  | cons chunk chunks ih => exact ih (b.append chunk)

/-- A stream leaves the same behind as if all of it had been added at once. -/
theorem capture_cuts (b : Buffer) {stream : List UInt8} {reads : List Read}
    (h : Cuts stream reads) : b.capture reads = (b.append stream).notify := by
  obtain ⟨chunks, last, rfl, hlast, -, rfl⟩ := h
  rw [capture_pieces b chunks hlast, append_pieces]

/-- A stream that is there at once can be read in the largest pieces. -/
theorem cuts_readsOfChunk (stream : List UInt8) (h : stream ≠ []) :
    Cuts stream (readsOfChunk stream ++ [.ended]) := by
  induction hn : stream.length using Nat.strong_induction_on generalizing stream with
  | _ n ih =>
    unfold readsOfChunk
    split
    · next hsmall =>
      have hfilled : ¬ stream.isEmpty = true := by simpa using h
      rw [if_neg hfilled]
      exact ⟨[stream], .ended, rfl, fun _ he => (nomatch he), by simp [h, hsmall], by simp⟩
    · next hlarge =>
      -- the first piece is as large as a read can be, and something is left behind it
      have hmore : stream.drop readSize ≠ [] := by
        rw [Ne, List.drop_eq_nil_iff]
        exact hlarge
      have hless : (stream.drop readSize).length < n := by
        rw [List.length_drop, ← hn]
        have hpos : 0 < stream.length := List.length_pos_iff.mpr h
        have hsize : 0 < readSize := by decide
        omega
      obtain ⟨chunks, last, hreads, hlast, hsizes, hflat⟩ := ih _ hless _ hmore rfl
      refine ⟨stream.take readSize :: chunks, last, ?_, hlast, ?_, ?_⟩
      · rw [List.map_cons, List.cons_append, List.cons_append, hreads]
      · intro chunk hc
        rcases List.mem_cons.mp hc with rfl | hc
        · refine ⟨fun hnil => ?_, List.length_take_le _ _⟩
          have hlength := congrArg List.length hnil
          rw [List.length_take_of_le (Nat.le_of_not_le hlarge)] at hlength
          exact absurd hlength (by decide)
        · exact hsizes chunk hc
      · rw [List.flatten_cons, hflat, List.take_append_drop]

/-! ## Every use -/

/-- What a buffer that keeps up to `limit` bytes, but at least one, keeps and gives after some
uses. -/
structure Exact (limit : Nat) (uses : List Use) : Prop where
  /-- It keeps the end of what was added since it was emptied last. -/
  kept : ((new limit).after uses).bytes <:+ Use.since uses
  /-- That is all of it, as far as there is room. -/
  length : ((new limit).after uses).bytes.length = min (max limit 1) (Use.since uses).length
  /-- What is taken is the text of just these bytes without the blanks at its end. -/
  gives : Trims (Text.Utf8.lossy ((new limit).after uses).bytes) ((new limit).after uses).take.1
  /-- Then nothing is kept. -/
  empties : ((new limit).after uses).take.2.bytes = [] ∧ ((new limit).after uses).clear.bytes = []
  /-- All texts that were taken are such texts. -/
  texts : (new limit).texts uses =
    ((new limit).taken uses).map fun bytes => Text.trimmedEnd (Text.Utf8.lossy bytes)
  /-- The bytes that were taken, and then those that are kept, were added in this order, and none of
  them is there twice. -/
  once : (((new limit).taken uses).flatten ++ ((new limit).after uses).bytes).Sublist
    (Use.added uses)
  /-- Whether bytes are added in these pieces or in those makes no difference to anything later. -/
  pieces : ∀ (chunks chunks' : List (List UInt8)) (later : List Use),
    chunks.flatten = chunks'.flatten →
    (new limit).after (uses ++ chunks.map .append ++ later) =
        (new limit).after (uses ++ chunks'.map .append ++ later) ∧
      (new limit).texts (uses ++ chunks.map .append ++ later) =
        (new limit).texts (uses ++ chunks'.map .append ++ later)
  /-- However a stream is read, the text that is taken behind it is the same. -/
  stream : ∀ stream reads reads', Cuts stream reads → Cuts stream reads' →
    (((new limit).after uses).capture reads).take =
      (((new limit).after uses).capture reads').take
  /-- That is the text of the end of all that was added, the stream included. -/
  streamed : ∀ stream reads, Cuts stream reads →
    (((new limit).after uses).capture reads).take.1 =
      Text.trimmedEnd (Text.Utf8.lossy (newest (max limit 1) (Use.since uses ++ stream)))

/-- Every use of a buffer leaves it as described. -/
theorem exact_after (limit : Nat) (uses : List Use) : Exact limit uses := by
  have hbytes := bytes_after limit uses
  refine ⟨?_, ?_, trims_trimmedEnd _, ⟨rfl, rfl⟩, texts_eq _ uses, ?_, ?_, ?_, ?_⟩
  · rw [hbytes]
    exact newest_suffix _ _
  · rw [hbytes, length_newest]
  · exact taken_sublist _ rfl (fits_new limit) uses
  · intro chunks chunks' later h
    have hsame : (new limit).after (uses ++ chunks.map .append) =
        (new limit).after (uses ++ chunks'.map .append) := by
      rw [after_append, after_append, append_pieces, append_pieces, h]
    refine ⟨?_, ?_⟩
    · rw [after_append, hsame, ← after_append]
    · rw [texts_append, texts_append, texts_append, texts_append, texts_pieces, texts_pieces, hsame]
  · intro stream reads reads' h h'
    rw [capture_cuts _ h, capture_cuts _ h']
  · intro stream reads h
    have hfits := fits_after _ (fits_new limit) uses
    have hlimit : ((new limit).after uses).limit = max limit 1 := limit_after _ uses
    rw [capture_cuts _ h]
    show Text.trimmedEnd (Text.Utf8.lossy (((new limit).after uses).append stream).bytes) = _
    rw [bytes_append _ hfits, hlimit, hbytes, newest_append]

/-- Bytes that are not UTF-8 are taken too: one that begins no character is a replacement in its
place, and what stands on both sides of it is read as it is. -/
theorem take_stray {b : Buffer} {front back : List Char}
    (h : b.bytes = Text.Utf8.encode front ++ 0xFF :: Text.Utf8.encode back) :
    b.take.1 = Text.trimmedEnd (String.ofList (front ++ Text.Utf8.replacement :: back)) := by
  have hread : Text.Utf8.lossy b.bytes =
      String.ofList front ++ (String.ofList [Text.Utf8.replacement] ++ String.ofList back) := by
    rw [h, Text.Utf8.lossy_append _ (Text.Utf8.chars_of_encode front), Text.Utf8.lossy_cons_stray,
      Text.Utf8.lossy_encode, Text.Utf8.lossy_encode]
  show Text.trimmedEnd (Text.Utf8.lossy b.bytes) = _
  rw [hread, ← String.ofList_append, ← String.ofList_append]
  rfl

/-- A character whose rest never comes is a replacement, and a byte that breaks it off is read. -/
example :
    ((new 9).capture [.data [97, 0xE2], .data [0x82, 98, 0xC3], .ended]).take.1 =
      "a\uFFFDb\uFFFD" := by
  decide +kernel

/-- A character that two reads cut through is read whole. -/
example : (((new 9).capture [.data [0xC3], .data [0xA9, 10], .ended]).take).1 = "é" := by
  decide +kernel

end Buffer
end KernelLink.Stderr
