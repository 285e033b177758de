import KernelLink.Proofs.Json.PrefixFree
import KernelLink.Proofs.Session.Pairing
import KernelLink.Proofs.Host.WholeLines
import KernelLink.Proofs.Wire.Decoded
/-!
# Replies that were cut off

A kernel that dies while it writes an object leaves a part of it, and no part of an object is a
document. So whatever a call returns for the reply of a kernel was made of a line that the kernel
finished, with its line feed; what stands behind the last line feed makes the call that takes it
fail.

Main definitions:
* `Envelope.IsObject`: a line that is an object.
* `Envelope.CutOff`, `Envelope.CutOffBytes`: a front of a line without all of its document.

Main results:
* `Envelope.CutOff.not_decoded`: such a front is not decoded.
* `World.replied_of_taken`: replies are made of lines that were taken.
* `World.replies_are_whole_lines`: no call returns what was cut off.
-/
namespace KernelLink

open Host (Pipe Delivery splitLines lineOf)

/-! ## Behind the last line feed -/

namespace Host

/-- There is no line feed in what stands behind the last complete line. -/
theorem not_mem_splitLines_rest (bs : List UInt8) : (10 : UInt8) ∉ (splitLines bs).2 := by
  induction bs with
  | nil => exact List.not_mem_nil
  | cons b bs ih =>
    rw [splitLines]
    by_cases hb : b = 10
    · rw [if_pos hb]
      exact ih
    · rw [if_neg hb]
      rcases hs : splitLines bs with ⟨_ | ⟨l, ls⟩, rest⟩
      · rw [hs] at ih
        exact fun hm => (List.mem_cons.mp hm).elim (fun e => hb e.symm) ih
      · rw [hs] at ih
        exact ih

/-- Bytes without a line feed have no line end to take off. -/
theorem lineOf_of_not_mem {bs : List UInt8} (h : (10 : UInt8) ∉ bs) :
    lineOf bs = Pipe.deliver bs := by
  have hend : Pipe.withoutEnd bs = bs := by
    unfold Pipe.withoutEnd
    split
    · next rest heq =>
      exact absurd (List.mem_reverse.mp (heq ▸ List.mem_cons_self)) h
    · next rest heq =>
      exact absurd (List.mem_reverse.mp (heq ▸ List.mem_cons_self)) h
    · rfl
  unfold lineOf
  rw [hend]

/-- A line of a stream is a complete one, or it is what stands behind the last line feed. -/
theorem mem_textLines {ended : Bool} {bs : List UInt8} {d : Delivery} (h : d ∈ textLines ended bs) :
    (∃ l ∈ (splitLines bs).1, d = lineOf l) ∨
      (splitLines bs).2 ≠ [] ∧ d = lineOf (splitLines bs).2 := by
  have hfilled : ∀ {ls : List (List UInt8)}, d ∈ filled ls → ∃ l ∈ ls, d = lineOf l := by
    intro ls hd
    obtain ⟨l, hl, rfl⟩ := List.mem_map.mp (List.mem_filter.mp hd).1
    exact ⟨l, hl, rfl⟩
  rcases List.mem_append.mp h with hd | hd
  · exact Or.inl (hfilled hd)
  · split at hd
    · next hrest =>
      obtain ⟨l, hl, rfl⟩ := hfilled hd
      rw [List.mem_singleton.mp hl]
      simp only [Bool.and_eq_true, Bool.not_eq_true', List.isEmpty_eq_false_iff] at hrest
      exact Or.inr ⟨hrest.2, rfl⟩
    · exact absurd hd List.not_mem_nil

/-- A line that was read from a pipe is a complete line of all that was written, or it is what
stands behind the last line feed of that. -/
theorem Pipe.Accounts.mem_read {p : Pipe} {total : List UInt8} {read : List Delivery}
    (h : p.Accounts total read) {d : Delivery} (hd : d ∈ read) :
    (∃ l ∈ (splitLines total).1, d = lineOf l) ∨ d = lineOf (splitLines total).2 := by
  obtain ⟨used, rfl, rfl, hends⟩ := h
  rcases mem_textLines hd with ⟨l, hl, rfl⟩ | ⟨hrest, rfl⟩
  · exact Or.inl ⟨l, (splitLines_grow used _).subset hl, rfl⟩
  · rcases hends with hends | ⟨hheld, hbytes, -⟩
    · exact absurd hends hrest
    · rw [hheld, hbytes, List.append_nil, List.append_nil]
      exact Or.inr rfl

end Host

/-! ## Fronts of a line -/

namespace Envelope

open Text.Utf8 (encode)

/-- The line is an object, apart from the blanks around it. -/
def IsObject (line : String) : Prop :=
  ∃ members, Json.read (encode (Text.trim line.toList)) = .ok (.obj members)

/-- A front of a line that is not all of its document with blanks around it. -/
structure CutOff (line part : String) : Prop where
  /-- It is a front of the line. -/
  front : part.toList <+: line.toList
  /-- Some of the document is missing. -/
  missing : Text.trim part.toList ≠ Text.trim line.toList

/-- Bytes at the front of a line that are not all of its document with blanks around it. -/
structure CutOffBytes (line : String) (bs : List UInt8) : Prop where
  /-- They are a front of the line. -/
  front : bs <+: Text.Utf8.bytes line
  /-- Some of the document is missing, if they read as text at all. -/
  missing : ∀ part, Text.Utf8.decode bs = .ok part →
    Text.trim part.toList ≠ Text.trim line.toList

variable {line part : String}

/-- A front of an object is not decoded. -/
theorem CutOff.not_decoded (h : CutOff line part) (hline : IsObject line) :
    ∃ fault, decodeLine part = .error fault := by
  obtain ⟨members, hread⟩ := hline
  obtain ⟨back, hback⟩ := Text.trim_front h.front
  cases hpart : Json.read (encode (Text.trim part.toList)) with
  | error fault =>
    refine ⟨fault, ?_⟩
    unfold decodeLine
    rw [hpart]
    rfl
  | ok v =>
    -- the part would be all of the object, and the line does not end in blanks
    obtain ⟨hwhole, -⟩ := Json.read_iff.mp hread
    obtain ⟨hdocument, -⟩ := Json.read_iff.mp hpart
    rw [← hback] at hwhole
    obtain ⟨-, hblanks⟩ := hwhole.front hdocument
    have hnil := Text.eq_nil_of_trim hback.symm fun c hc =>
      (Json.blanks_nil_iff.mp hblanks c hc).isBlank
    rw [hnil, List.append_nil] at hback
    exact absurd hback h.missing

end Envelope

namespace Session

open Envelope (IsObject CutOffBytes)

/-- Nobody returns what was cut off: a front of an object is no document. -/
theorem not_reply_of_cutOff {line : String} {bs : List UInt8} (h : CutOffBytes line bs)
    (hline : IsObject line) (hrest : (10 : UInt8) ∉ bs) :
    isReply (replyTo (lineOf bs)) = false := by
  rw [Host.lineOf_of_not_mem hrest]
  unfold Pipe.deliver
  cases hread : Text.Utf8.decode bs with
  | error fault => rfl
  | ok part =>
    have hcut : Envelope.CutOff line part :=
      ⟨Text.Utf8.decode_front h.front hread, h.missing part hread⟩
    obtain ⟨fault, hfault⟩ := hcut.not_decoded hline
    show isReply (replyTo (.line part)) = false
    rw [World.replyTo_of_error hfault]
    rfl

/-! ## Along a run -/

namespace World

variable {w : World}

/-- A payload or an error of the kernel that a call returns was made of a line that it took. -/
theorem replied_of_taken (hnew : ∀ id, w.callResult? id = none) (events : List Event) {id : Nat}
    {result : Result} (hr : (w.run events).callResult? id = some result)
    (hreply : isReply result = true) :
    ∃ d, (id, d) ∈ Log.taken (w.log events) ∧ result = replyTo d := by
  induction events using List.reverseRecOn generalizing result with
  | nil => exact absurd ((hnew id).symm.trans hr) (Option.some_ne_none result).symm
  | append_singleton past e ih =>
    rw [run_concat] at hr
    rw [log_concat, Log.taken_append]
    have hstep := apply_cases (w.run past) e
    cases hbefore : (w.run past).callResult? id with
    | some earlier =>
      obtain ⟨line, ht⟩ := callResult?_eq_some.mp hr
      have hkept := hstep.callResult?_of hbefore (ne_abandon ht)
      obtain rfl := Option.some.inj (hkept.symm.trans hr)
      obtain ⟨d, hd, hresult⟩ := ih hbefore hreply
      exact ⟨d, List.mem_append_left _ hd, hresult⟩
    | none =>
      -- a call that is told the link is closed has no reply; otherwise a poll has made the result
      rcases hstep.callResult?_new hbefore hr with rfl | ⟨line, before, -, poll⟩
      · exact absurd hreply Bool.false_ne_true
      · rcases poll.result with ⟨-, d, -, htaken, hresult, -⟩ | failed
        · exact ⟨d, by rw [htaken]; simp, hresult⟩
        · exact absurd (failed.reply.symm.trans hreply) Bool.false_ne_true

/-- A reply was made of a line that is a document. -/
theorem decoded_of_isReply {d : Delivery} (h : isReply (replyTo d) = true) :
    ∃ text envelope, d = .line text ∧ Envelope.decodeLine text = .ok envelope ∧
      replyTo d = envelope.payload := by
  cases d with
  | line text =>
    cases hdec : Envelope.decodeLine text with
    | ok envelope => exact ⟨text, envelope, rfl, hdec, replyTo_of_ok hdec⟩
    | error fault =>
      rw [replyTo_of_error hdec] at h
      exact absurd h Bool.false_ne_true
  | unreadable fault => exact absurd h Bool.false_ne_true
  | ended => exact absurd h Bool.false_ne_true

/-- A front of an object that is not all of it is not decoded. So if behind the last line feed of
all that a kernel has written to its output there is only such a front of a reply, then every
payload and every error of the kernel that a call returns was made of a line that the kernel has
finished. -/
theorem replies_are_whole_lines :
    (∀ line part : String, IsObject line → Envelope.CutOff line part →
      ∃ fault, Envelope.decodeLine part = .error fault) ∧
    ∀ (timing : Timing) (wires : Wires) (events : List Event) (line : String), IsObject line →
      CutOffBytes line (splitLines (wires.output.held ++ wires.output.bytes ++
        Log.spoken ((World.new timing wires).log events))).2 →
      ∀ id result, ((World.new timing wires).run events).callResult? id = some result →
        isReply result = true →
        ∃ l ∈ (splitLines (wires.output.held ++ wires.output.bytes ++
            Log.spoken ((World.new timing wires).log events))).1,
          ∃ text envelope, lineOf l = .line text ∧ Envelope.decodeLine text = .ok envelope ∧
            result = envelope.payload := by
  refine ⟨fun line part hline hcut => hcut.not_decoded hline, ?_⟩
  intro timing wires events line hline hcut id result hr hreply
  have hnew : ∀ id, (World.new timing wires).callResult? id = none := fun _ => rfl
  obtain ⟨d, hd, rfl⟩ := replied_of_taken hnew events hr hreply
  have hread := (accounts_run (World.new timing wires) events).mem_read
    (List.mem_map.mpr ⟨(id, d), hd, rfl⟩)
  rcases hread with ⟨l, hl, hwhole⟩ | hrest
  · obtain ⟨text, envelope, htext, hdecoded, hpayload⟩ := decoded_of_isReply hreply
    exact ⟨l, hl, text, envelope, hwhole.symm.trans htext, hdecoded, hpayload⟩
  · -- what stands behind the last line feed gives no reply
    have hnone := not_reply_of_cutOff hcut hline (Host.not_mem_splitLines_rest _)
    rw [show d = _ from hrest] at hreply
    exact absurd (hnone.symm.trans hreply) Bool.false_ne_true

/-- A call gets its reply, and the kernel dies in the middle of the next one. -/
def dyingReplies : List Event :=
  [.call 0 [10], .poll 0, .poll 0, .poll 0,
    .kernelWrites (Text.Utf8.bytes "\x7b\"ok\":1\x7d\n\x7b\"ok\":"), .kernelClosesOutput,
    .poll 0, .poll 0, .call 1 [10], .poll 1, .poll 1, .poll 1, .poll 1]

/-- The first call returns what the kernel has finished, and the second nothing that it has not. -/
theorem half_reply_not_returned :
    IsObject "\x7b\"ok\":2\x7d" ∧
    (∃ l ∈ (splitLines (Log.spoken ((World.new ⟨1, 1, 0, 1, 9⟩ (.new 0 9)).log dyingReplies))).1,
      ∃ text envelope, lineOf l = .line text ∧ Envelope.decodeLine text = .ok envelope ∧
        .ok (.num (.int 1)) = envelope.payload) ∧
    ((World.new ⟨1, 1, 0, 1, 9⟩ (.new 0 9)).run dyingReplies).callResult? 1 =
      some (.error (.poisoned "unparseable kernel output: \x7b\"ok\":")) := by
  have hobject : IsObject "\x7b\"ok\":2\x7d" := ⟨[("ok", .num (.int 2))], by decide +kernel⟩
  have hrest : (splitLines (Log.spoken
      ((World.new ⟨1, 1, 0, 1, 9⟩ (.new 0 9)).log dyingReplies))).2 =
        Text.Utf8.bytes "\x7b\"ok\":" := by decide +kernel
  -- the pipes are empty at first
  have hnew : (Wires.new 0 9).output.held ++ (Wires.new 0 9).output.bytes = [] := rfl
  have hreplies := replies_are_whole_lines.2 ⟨1, 1, 0, 1, 9⟩ (.new 0 9) dyingReplies _ hobject
  rw [hnew, List.nil_append, hrest] at hreplies
  refine ⟨hobject, hreplies ⟨by decide +kernel, fun part hpart => ?_⟩ 0 _ (by decide +kernel) rfl,
    by decide +kernel⟩
  rw [Text.Utf8.bytes, Text.Utf8.decode_encode] at hpart
  obtain rfl := Except.ok.inj hpart
  decide +kernel

end World
end Session
end KernelLink
