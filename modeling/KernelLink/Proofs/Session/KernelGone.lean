import KernelLink.Proofs.Session.Dead
import KernelLink.Proofs.Session.Fallback
import KernelLink.Proofs.Session.Malformed
import KernelLink.Proofs.Session.Abandoned
/-!
# When a call finds that the kernel is gone

A call finds that the kernel is gone when nobody takes its line, or when it meets the end of the
output. Then the conversation is over, and the call reports what the kernel said last on its error
output. It meets the end of the output exactly if nothing but blanks is left there. A kernel that
dies in the middle of a line leaves a part of it, and that part is taken for a line: the call fails
because it is no document, or it is thrown away as a late reply, and the last words of the kernel
are not reported.

Main definitions:
* `World.FindsGone`, `World.Stranded`: a call finds that the kernel is gone, and a call whose kernel
  writes no more.
* `World.ReportsExit`: what a call does that finds that the kernel is gone.
* `World.MissesExit`: what a call does that takes a line instead.
* `World.ExitReported`: which of the two a call does.

Main results:
* `World.exit_reported`: when the end of a kernel is reported as such.
* `World.fragment_hides_exit`: a run in which it is not.
-/
namespace KernelLink.Session

open Host (Pipe Delivery)
open Stderr (Buffer)
open Text (IsBlankBytes)

/-- Does a call in this stage wait for the last words of a kernel that is gone? -/
def Stage.leaves : Stage → Bool
  | .leaving _ => true
  | .queued | .discarding _ | .writing _ | .awaiting _ _ | .finished _ => false

/-- A call that waits for the last words of a kernel is in its turn. -/
theorem Stage.inTurn_of_leaves (stage : Stage) (h : stage.leaves = true) : stage.inTurn = true := by
  cases stage with
  | leaving endsAt => rfl
  | _ => exact absurd h Bool.false_ne_true

theorem Stage.not_leaves_of_waits {stage : Stage} (h : stage.waits = true) :
    stage.leaves = false := by
  cases stage with
  | leaving endsAt => exact absurd h Bool.false_ne_true
  | _ => rfl

/-- The text that captured error output is reported as. -/
def wordsOf (bytes : List UInt8) : String := Text.trimmedEnd (Text.Utf8.lossy bytes)

/-- Blank error output is none: nothing is said then but that there was no response. -/
theorem lastWords_wordsOf_iff (bytes : List UInt8) :
    lastWords (wordsOf bytes) = .error .noResponse ↔ IsBlankBytes bytes :=
  World.lastWords_eq_noResponse_iff ⟨0, bytes, false⟩

namespace World

variable {w w' : World} {id : Nat} {line : List UInt8} {before after stage : Stage}
  {deeds : List Deed} {log : Log}

/-! ## The end of the output -/

/-- With its next poll the call finds that the kernel is gone. -/
def FindsGone (w : World) (id : Nat) : Prop := w.Reaches Stage.leaves id

/-- A call waits for a line of a kernel whose output has ended, and nobody has told it to stop. -/
structure Stranded (w : World) (id : Nat) (line : List UInt8) (stage : Stage) : Prop where
  /-- The call is in the stage. -/
  task : w.task? id = some (.call line stage)
  /-- It waits for a line. -/
  waits : stage.waits = true
  /-- Nobody has told it to stop. -/
  going : w.cancelled = false
  /-- The output has ended. -/
  ended : w.wires.output.writing = false

/-- A call that meets the end of the output finds that the kernel is gone. -/
theorem findsGone_of_ended {output : Pipe} (ht : w.task? id = some (.call line stage))
    (hwaits : stage.waits = true) (hgoing : w.cancelled = false)
    (hnext : w.wires.output.nextLine? = some (.ended, output)) : w.FindsGone id := by
  have hpoll : w.pollCall id line stage = some (w.kernelGone id line) := by
    cases stage with
    | discarding deadline =>
      simp only [pollCall, pollDiscarding, hgoing, hnext, Bool.false_eq_true, if_false]
    | awaiting deadline graceEnd =>
      simp only [pollCall, pollAwaiting, hgoing, hnext, Bool.false_eq_true, if_false]
    | _ => exact absurd hwaits Bool.false_ne_true
  have hgone : CallStep w id line stage _ (w.kernelGone id line) [] := .gone hwaits hgoing hnext
  refine ⟨line, stage, .leaving (w.wires.now + w.timing.stderrGrace), ht,
    Stage.not_leaves_of_waits hwaits, ?_, rfl⟩
  rw [apply_poll ((poll_eq ht).trans hpoll)]
  exact hgone.self ht

/-- A call that finds that the kernel is gone met the end of the output, or nobody took its line. -/
theorem CallStep.finds (h : CallStep w id line before after w' deeds)
    (hb : before.leaves = false) (ha : after.leaves = true) :
    (before.waits = true ∧ ∃ output, w.wires.output.nextLine? = some (.ended, output)) ∨
    ∃ rest, before = .writing rest ∧ rest ≠ [] ∧
      ¬ (w.wires.input.writing && w.wires.input.reading) = true := by
  cases h with
  | gone waits going read => exact Or.inl ⟨waits, _, read⟩
  | @broken rest more shut => exact Or.inr ⟨rest, rfl, more, shut⟩
  | skip | fill =>
    rw [hb] at ha
    exact absurd ha Bool.false_ne_true
  | _ => exact absurd ha Bool.false_ne_true

/-- What the next poll of such a call does: it makes way for later lines, it finds that the kernel
is gone, or it takes a line. -/
theorem Stranded.next (h : w.Stranded id line stage) :
    (w.unread = [] ∧ w.FindsGone id) ∨
    (∃ d ds, w.unread = d :: ds ∧ .took id d ∈ w.deeds (.poll id)) ∨
    ∃ q, w.apply (.poll id) = w.withOutput q ∧ w.deeds (.poll id) = [] ∧
      (w.withOutput q).Stranded id line stage ∧ (w.withOutput q).unread = w.unread ∧
      q.held.length + 2 * q.bytes.length <
        w.wires.output.held.length + 2 * w.wires.output.bytes.length := by
  rcases w.wires.output.next_cases with ⟨hnext, hfill⟩ | ⟨q, hnext⟩ | ⟨d, q, hnext, hd, hlines⟩ |
    ⟨q, hpass, hw, hlines, hless⟩
  · -- more could come, but the output has ended
    have hopen := (Pipe.textLines_of_nothing hnext hfill).1
    exact absurd (h.ended.symm.trans hopen) Bool.false_ne_true
  · obtain ⟨-, hheld, hbytes⟩ := Pipe.textLines_of_ended hnext
    exact Or.inl ⟨unread_of_empty hheld hbytes,
      findsGone_of_ended h.task h.waits h.going hnext⟩
  · exact Or.inr (Or.inl ⟨d, _, hlines, took_poll h.task h.waits h.going hnext hd⟩)
  · exact Or.inr (Or.inr ⟨q, apply_poll_passes h.task h.waits h.going hpass,
      deeds_poll_passes h.task h.waits h.going hpass,
      ⟨h.task, h.waits, h.going, hw.trans h.ended⟩, hlines, hless⟩)

/-- A call that has found that the kernel is gone, or is about to, without taking a line, has met
the end of the output with nothing left but blanks. -/
theorem Stranded.unread_of_findsGone (h : w.Stranded id line stage) {n : Nat}
    (hgone : (w.run (List.replicate n (.poll id))).FindsGone id)
    (hlog : ∀ d, .took id d ∉ w.log (List.replicate n (.poll id))) : w.unread = [] := by
  induction n generalizing w with
  | zero =>
    obtain ⟨l, before, after, ht, hb, ha, poll⟩ := hgone.poll Stage.inTurn_of_leaves
    obtain ⟨rfl, rfl⟩ := call_inj h.task ht
    rcases poll.finds hb ha with ⟨-, output, hnext⟩ | ⟨rest, rfl, -⟩
    · obtain ⟨-, hheld, hbytes⟩ := Pipe.textLines_of_ended hnext
      exact unread_of_empty hheld hbytes
    · exact absurd h.waits Bool.false_ne_true
  | succ n ih =>
    rw [List.replicate_succ] at hgone hlog
    rcases h.next with ⟨hnone, -⟩ | ⟨d, ds, -, hd⟩ | ⟨q, hpass, hquiet, hq, hsame, -⟩
    · exact hnone
    · exact absurd (List.mem_append_left _ hd) (hlog d)
    · replace hgone : ((w.apply (.poll id)).run (List.replicate n (.poll id))).FindsGone id := hgone
      rw [log, hquiet, hpass, List.nil_append] at hlog
      rw [hpass] at hgone
      exact hsame.symm.trans (ih hq hgone hlog)

/-- If nothing is left but blanks, the call finds that the kernel is gone, without taking a line. -/
theorem Stranded.finds (h : w.Stranded id line stage) (hnone : w.unread = []) :
    ∃ n, (w.run (List.replicate n (.poll id))).FindsGone id ∧
      ∀ d, .took id d ∉ w.log (List.replicate n (.poll id)) := by
  generalize hk : w.wires.output.held.length + 2 * w.wires.output.bytes.length = k
  induction k using Nat.strongRecOn generalizing w with
  | ind k ih =>
    rcases h.next with ⟨-, hgone⟩ | ⟨d, ds, hd, -⟩ | ⟨q, hpass, hquiet, hq, hsame, hless⟩
    · exact ⟨0, hgone, fun d hm => absurd hm List.not_mem_nil⟩
    · exact absurd (hnone.symm.trans hd) (List.cons_ne_nil d ds).symm
    · obtain ⟨n, hn, hlog⟩ := ih _ (hk ▸ hless) hq (hsame.trans hnone) rfl
      refine ⟨n + 1, ?_, fun d hm => ?_⟩
      · rw [List.replicate_succ]
        show ((w.apply (.poll id)).run _).FindsGone id
        rw [hpass]
        exact hn
      · rw [List.replicate_succ, log, hquiet, hpass, List.nil_append] at hm
        exact hlog d hm

/-! ## A line at the end of the output -/

/-- A call takes the line `d` though its kernel is gone. -/
structure MissesExit (w : World) (id : Nat) (line : List UInt8) (stage : Stage) (d : Delivery) :
    Prop where
  /-- It takes the line. -/
  takes : .took id d ∈ w.deeds (.poll id)
  /-- If it waits for its reply, it makes its result of the line, which is no report of an exit, and
  the last words of the kernel stay where they are. -/
  awaiting : ∀ deadline graceEnd, stage = .awaiting deadline graceEnd →
    (w.apply (.poll id)).callResult? id = some (replyTo d) ∧
      (∀ text, replyTo d ≠ lastWords text) ∧
      (isDocument d = false → ∃ why, (w.apply (.poll id)).phase = .poisoned why) ∧
      (w.apply (.poll id)).wires.buffer = w.wires.buffer
  /-- If it waits for a late reply and the line is text, it throws the line away, and with it what
  the kernel has said, and begins to write. -/
  discarding : ∀ deadline text, stage = .discarding deadline → d = .line text →
    (w.apply (.poll id)).task? id = some (.call line (.writing line)) ∧
      (w.apply (.poll id)).wires.buffer.bytes = []

/-- What is made of a line is no report of an exit. -/
theorem replyTo_ne_lastWords {d : Delivery} (h : d ≠ .ended) (text : String) :
    replyTo d ≠ lastWords text := by
  unfold lastWords
  split
  · cases d with
    | line t =>
      cases hdec : Envelope.decodeLine t with
      | ok envelope =>
        rw [replyTo_of_ok hdec]
        cases envelope <;> simp [Envelope.payload]
      | error e =>
        rw [replyTo_of_error hdec]
        simp
    | unreadable fault => simp [replyTo]
    | ended => exact absurd rfl h
  · exact replyTo_ne_kernelStderr d text

/-- A call that takes a line leaves the error output alone, unless it throws the line away: then it
throws that away as well. -/
theorem CallStep.took_buffer {d : Delivery} (h : CallStep w id line before after w' deeds)
    (hm : .took id d ∈ deeds) :
    (w'.wires.buffer = w.wires.buffer ∧
        ∀ deadline, before = .discarding deadline → ∃ fault, d = .unreadable fault) ∨
      (∃ deadline, before = .discarding deadline) ∧ after = .writing line ∧
        w'.wires.buffer.bytes = [] := by
  cases h with
  | fail =>
    rw [List.mem_singleton, Deed.took.injEq] at hm
    exact Or.inl ⟨rfl, fun _ _ => ⟨_, hm.2⟩⟩
  | reply | garbled => exact Or.inl ⟨rfl, fun _ hs => Stage.noConfusion hs⟩
  | discard => exact Or.inr ⟨⟨_, rfl⟩, rfl, rfl⟩
  | _ => exact absurd hm (by simp)

/-- A call that takes a line misses the end of the kernel behind it, and what it then says is what
that line says. -/
theorem Orderly.missesExit {d : Delivery} (hw : w.Orderly)
    (ht : w.task? id = some (.call line stage)) (hm : .took id d ∈ w.deeds (.poll id)) :
    w.MissesExit id line stage d := by
  obtain ⟨l, before, after, task, poll⟩ := hw.poll_of_deed hm rfl
  obtain ⟨rfl, rfl⟩ := call_inj ht task
  refine ⟨hm, ?_, ?_⟩
  · rintro deadline graceEnd rfl
    -- the end of the output would have been found, not taken
    have hne : d ≠ .ended := by
      obtain ⟨output, -, hinked⟩ := poll.reads (poll.took hm).2
      rintro rfl
      exact Bool.false_ne_true hinked.symm
    refine ⟨hw.takes_reply ht hm, replyTo_ne_lastWords hne, fun hd => ?_, ?_⟩
    · rcases poll.malformed hm hd with ⟨hphase, -⟩ | ⟨-, ⟨limit, hs⟩, -⟩
      · exact hphase
      · exact Stage.noConfusion hs
    · rcases poll.took_buffer hm with ⟨hbuffer, -⟩ | ⟨⟨limit, hs⟩, -⟩
      · exact hbuffer
      · exact Stage.noConfusion hs
  · rintro deadline text rfl rfl
    have hself := poll.self ht
    rcases poll.took_buffer hm with ⟨-, hfault⟩ | ⟨-, rfl, hbuffer⟩
    · obtain ⟨fault, hd⟩ := hfault deadline rfl
      exact Delivery.noConfusion hd
    · exact ⟨hself, hbuffer⟩

/-- If a line is left that is not blank, the call takes the first one. Until then it only makes way
for it. -/
theorem Stranded.takes (h : w.Stranded id line stage) (hw : w.Orderly) {d : Delivery}
    {ds : List Delivery} (hd : w.unread = d :: ds) :
    ∃ n q, w.run (List.replicate n (.poll id)) = w.withOutput q ∧
      (w.withOutput q).MissesExit id line stage d := by
  generalize hk : w.wires.output.held.length + 2 * w.wires.output.bytes.length = k
  induction k using Nat.strongRecOn generalizing w with
  | ind k ih =>
    rcases h.next with ⟨hnone, -⟩ | ⟨x, xs, hx, hm⟩ | ⟨q, hpass, -, hq, hsame, hless⟩
    · exact absurd (hnone.symm.trans hd) (List.cons_ne_nil d ds).symm
    · obtain ⟨rfl, -⟩ := List.cons.inj (hd.symm.trans hx)
      exact ⟨0, w.wires.output, rfl, hw.missesExit h.task hm⟩
    · have hnow : (w.withOutput q).Orderly := hpass ▸ hw.step (apply_cases w _)
      obtain ⟨n, r, hrun, hmiss⟩ := ih _ (hk ▸ hless) hq hnow (hsame.trans hd) rfl
      refine ⟨n + 1, r, ?_, hmiss⟩
      rw [List.replicate_succ]
      show (w.apply (.poll id)).run _ = _
      rw [hpass, hrun]
      rfl

/-! ## The last words of a kernel -/

/-- What the buffer keeps of what it held and of what was captured from a poll of a call on. -/
def lastBytes (w : World) (id : Nat) (mid : List Event) : List UInt8 :=
  Buffer.newest w.wires.buffer.limit (w.wires.buffer.bytes ++ w.capturedSince [] mid id)

/-- With its next poll a call finds that the kernel is gone. The conversation is over, and the call
reports the last words of the kernel once the grace has ended. -/
structure ReportsExit (w : World) (id : Nat) : Prop where
  /-- The conversation is over for good. -/
  exited : ∀ more, (w.run (.poll id :: more)).phase = .exited
  /-- When the grace has ended, the next poll makes the last words the result. -/
  words : ∀ mid, .abandon id ∉ mid → (w.run (.poll id :: mid)).callResult? id = none →
    w.wires.now + w.timing.stderrGrace ≤ (w.run (.poll id :: mid)).wires.now →
    (w.run (.poll id :: mid ++ [.poll id])).callResult? id =
      some (lastWords (wordsOf (w.lastBytes id mid)))
  /-- There is no other result, and none before. -/
  only : ∀ mid e result, Ends w [] mid e id result →
    w.wires.now + w.timing.stderrGrace ≤ (w.run (.poll id :: mid)).wires.now ∧
      result = lastWords (wordsOf (w.lastBytes id mid))
  /-- The last words are none if only blanks were captured. -/
  silent : ∀ mid, lastWords (wordsOf (w.lastBytes id mid)) = .error .noResponse ↔
    IsBlankBytes (w.lastBytes id mid)
  /-- Calls that begin later are told that the link is closed. -/
  closed : ∀ more i result, w.task? i = none →
    (w.run (.poll id :: more)).callResult? i = some result → result = .error .closed
  /-- They are told so after some time and some polls. -/
  soon : ∀ more i line, w.task? i = none →
    (w.run (.poll id :: more)).task? i = some (.call line .queued) →
    ∃ (ms : Nat) (ids : List Nat),
      (w.run (.poll id :: more ++ .pass ms :: ids.map .poll)).callResult? i =
        some (.error .closed)

/-- What finding that the kernel is gone does: the call goes on to its grace, the session is over
and the buffer is left as it stands. There are two rules by which this happens. -/
theorem CallStep.found (h : CallStep w id line before after w' deeds)
    (hb : before.leaves = false) (ha : after.leaves = true) :
    after = .leaving (w.wires.now + w.timing.stderrGrace) ∧ w'.phase = .exited ∧
      w'.wires.buffer = w.wires.buffer := by
  cases h with
  | gone | broken => exact ⟨rfl, rfl, rfl⟩
  | skip | fill =>
    rw [hb] at ha
    exact absurd ha Bool.false_ne_true
  | _ => exact absurd ha Bool.false_ne_true

/-- A call that waits for the last words gets them when the grace has ended. -/
theorem CallStep.left {endsAt : Nat} (h : CallStep w id line (.leaving endsAt) after w' deeds) :
    endsAt ≤ w.wires.now ∧ after = .finished (lastWords w.wires.buffer.text) := by
  cases h with
  | leave due => exact ⟨due, rfl⟩
  | cancel waits | skip waits | fail waits | gone waits | fill waits =>
    exact absurd waits Bool.false_ne_true

/-- While a call waits for the last words: the grace ends at `endsAt`, and the buffer that held
`kept` only takes what is captured. -/
structure Leaving (kept : List UInt8) (limit endsAt id : Nat) (w : World) (log : Log) : Prop where
  /-- The call waits. -/
  stage : ∀ {line stage}, w.task? id = some (.call line stage) → stage = .leaving endsAt
  /-- The limit stays. -/
  bound : w.wires.buffer.limit = limit
  /-- What the buffer keeps. -/
  bytes : w.wires.buffer.bytes = Buffer.newest limit (kept ++ Log.captured log)

/-- What the others do leaves the grace of the call as it is; the reader may still add to the
buffer. -/
theorem Leaving.calm {kept : List UInt8} {limit endsAt : Nat} {e : Event}
    (h : Leaving kept limit endsAt id w log) (ht : w.task? id = some (.call line stage))
    (hcalm : Calm w e w' deeds) (hself : w'.task? id = some (.call line stage)) :
    Leaving kept limit endsAt id w' (log ++ deeds) := by
  obtain ⟨hlimit, hbytes⟩ := hcalm.wires.buffer
  refine ⟨fun {l s} hs => ?_, hlimit.trans h.bound, ?_⟩
  · obtain ⟨-, rfl⟩ := call_inj hself hs
    exact h.stage ht
  · rw [Log.captured_append]
    rcases hbytes with ⟨hb, hnone⟩ | hb
    · rw [hb, hnone, List.append_nil, h.bytes]
    · rw [hb, h.bound, h.bytes, Buffer.newest_append, List.append_assoc]

/-- From the poll with which a call finds that the kernel is gone until it has a result. -/
theorem FindsGone.leaving (h : w.FindsGone id) (hw : w.Orderly) (hf : w.wires.buffer.Fits)
    (mid : List Event) (hkept : .abandon id ∉ mid)
    (hn : (w.run (.poll id :: mid)).callResult? id = none) :
    Leaving w.wires.buffer.bytes w.wires.buffer.limit (w.wires.now + w.timing.stderrGrace) id
      (w.run (.poll id :: mid)) (w.log (.poll id :: mid)) ∧
    ∃ line, (w.run (.poll id :: mid)).task? id =
      some (.call line (.leaving (w.wires.now + w.timing.stderrGrace))) := by
  obtain ⟨line, before, after, ht, hb, ha, poll⟩ := h.poll Stage.inTurn_of_leaves
  -- the poll begins the grace and leaves alone what was captured
  obtain ⟨rfl, -, hbuffer⟩ := poll.found hb ha
  have hself := poll.self ht
  have hfirst : Leaving w.wires.buffer.bytes w.wires.buffer.limit
      (w.wires.now + w.timing.stderrGrace) id (w.apply (.poll id)) (w.deeds (.poll id)) := by
    refine ⟨fun {l s} hs => (call_inj hself hs).2.symm, by rw [hbuffer], ?_⟩
    rw [hbuffer, poll.captured, List.append_nil, Buffer.newest_of_le hf]
  have hnow : (w.apply (.poll id)).Orderly := hw.step (apply_cases w _)
  rcases hnow.span hself rfl hfirst
    (fun {v log l before after v' deeds} _ hl ht _ hs _ hturn => by
      obtain rfl := hl.stage ht
      rw [hs.left.2] at hturn
      exact absurd hturn Bool.false_ne_true)
    (fun _ hl ht _ hcalm hself => hl.calm ht hcalm hself) mid hkept with ⟨result, hr⟩ | ⟨hat, hl⟩
  · rw [show (w.run (.poll id :: mid)).callResult? id = some result from hr] at hn
    exact absurd hn (Option.some_ne_none result)
  · obtain ⟨l, stage, hstage, -⟩ := hat
    refine ⟨hl, l, ?_⟩
    obtain rfl := hl.stage hstage
    exact hstage

/-- When the grace has ended, the next poll makes the last words the result. -/
theorem FindsGone.words (h : w.FindsGone id) (hw : w.Orderly) (hf : w.wires.buffer.Fits)
    (mid : List Event) (hkept : .abandon id ∉ mid)
    (hn : (w.run (.poll id :: mid)).callResult? id = none)
    (hdue : w.wires.now + w.timing.stderrGrace ≤ (w.run (.poll id :: mid)).wires.now) :
    (w.run (.poll id :: mid ++ [.poll id])).callResult? id =
      some (lastWords (wordsOf (w.lastBytes id mid))) := by
  obtain ⟨hl, line, ht⟩ := h.leaving hw hf mid hkept hn
  have hbytes : (w.run (.poll id :: mid)).wires.buffer.text = wordsOf (w.lastBytes id mid) :=
    congrArg wordsOf hl.bytes
  rw [run_concat, ← hbytes]
  generalize w.run (.poll id :: mid) = v at ht hdue
  have hpoll : ∃ v', v.pollCall id line (.leaving (w.wires.now + w.timing.stderrGrace)) = some v' :=
    ⟨_, if_pos hdue⟩
  obtain ⟨v', hpoll⟩ := hpoll
  obtain ⟨after, deeds, hs⟩ := pollCall_cases hpoll
  obtain ⟨-, rfl⟩ := hs.left
  rw [apply_poll ((poll_eq ht).trans hpoll)]
  exact callResult?_eq_some.mpr ⟨line, hs.self ht⟩

/-- A call that has found that the kernel is gone has no other result, and none before. -/
theorem FindsGone.only (h : w.FindsGone id) (hw : w.Orderly) (hf : w.wires.buffer.Fits)
    {mid : List Event} {e : Event} {result : Result} (hends : Ends w [] mid e id result) :
    w.wires.now + w.timing.stderrGrace ≤ (w.run (.poll id :: mid)).wires.now ∧
      result = lastWords (wordsOf (w.lastBytes id mid)) := by
  have hn : (w.run (.poll id :: mid)).callResult? id = none := hends.waits
  obtain ⟨hl, line, ht⟩ := h.leaving hw hf mid hends.kept hn
  have hr : (w.run (.poll id :: mid ++ [e])).callResult? id = some result := hends.ends
  have hbytes : (w.run (.poll id :: mid)).wires.buffer.text = wordsOf (w.lastBytes id mid) :=
    congrArg wordsOf hl.bytes
  rw [run_concat] at hr
  rw [← hbytes]
  generalize w.run (.poll id :: mid) = v at ht hn hr
  obtain ⟨l, hfinished⟩ := callResult?_eq_some.mp hr
  -- only its own poll gives the call a result, and that not before the grace has ended
  rcases (apply_cases v e).call_goes ht (ne_abandon hfinished) with
    hsame | ⟨after, hafter, poll⟩ | ⟨hq, -⟩
  · obtain ⟨-, hs⟩ := call_inj hsame hfinished
    exact Stage.noConfusion hs
  · obtain ⟨hdue, rfl⟩ := poll.left
    obtain ⟨-, hs⟩ := call_inj hafter hfinished
    exact ⟨hdue, (Stage.finished.inj hs).symm⟩
  · exact Stage.noConfusion hq

/-- A call that finds that the kernel is gone reports that: what it waits for from then on is only
the text, and no rule of a call that is leaving gives another result. -/
theorem FindsGone.reportsExit (h : w.FindsGone id) (hw : w.Orderly) (hf : w.wires.buffer.Fits)
    (ht : w.Tidy) : w.ReportsExit id := by
  obtain ⟨line, before, after, htask, hb, ha, poll⟩ := h.poll Stage.inTurn_of_leaves
  obtain ⟨-, hphase, -⟩ := poll.found hb ha
  have hnow : (w.apply (.poll id)).Orderly := hw.step (apply_cases w _)
  have htidy : (w.apply (.poll id)).Tidy := ht.step hw _
  have hp : (w.apply (.poll id)).phase.refusal = some .closed := by rw [hphase]; rfl
  have hexited : ∀ more, ((w.apply (.poll id)).run more).phase = .exited := by
    intro more
    rcases phase_run hnow hp more with hsame | hexited
    · exact hsame.trans hphase
    · exact hexited
  -- a call that is not there yet begins in a conversation that is over
  have hnew : ∀ {i}, w.task? i = none → (w.apply (.poll id)).task? i = none := by
    intro i hi
    rw [poll.others, hi]
    rintro rfl
    exact absurd (htask.symm.trans hi) (Option.some_ne_none _)
  have htold : ∀ more {i line stage}, w.task? i = none →
      ((w.apply (.poll id)).run more).task? i = some (.call line stage) →
      stage = .queued ∨ stage = .finished (.error .closed) :=
    fun more {i l s} hi hs => told_run hnow htidy hp (hnew hi) more (.inl rfl) hs
  refine ⟨hexited, h.words hw hf, fun mid e result hends => h.only hw hf hends,
    fun mid => lastWords_wordsOf_iff _, fun more i result hi hr => ?_, fun more i l hi hq => ?_⟩
  · obtain ⟨l, hl⟩ := callResult?_eq_some.mp hr
    rcases htold more hi hl with hs | hs
    · exact Stage.noConfusion hs
    · exact Stage.finished.inj hs
  · have hp' : ((w.apply (.poll id)).run more).phase.refusal = some .closed := by
      rw [hexited]
      rfl
    obtain ⟨ms, ids, e, hr⟩ := fails_soon (hnow.run more) (htidy.run hnow more) hp' (.inl ⟨l, hq⟩)
    refine ⟨ms, ids, ?_⟩
    rw [← run_append] at hr
    obtain ⟨l', hl⟩ := callResult?_eq_some.mp hr
    rcases htold _ hi hl with hs | hs
    · exact Stage.noConfusion hs
    · rw [Stage.finished.inj hs] at hr
      exact hr

/-! ## Whether an exit is reported -/

/-- When a call finds that the kernel is gone and reports that, and when it takes a line instead. -/
structure ExitReported (w : World) (id : Nat) : Prop where
  /-- A call that writes finds it exactly if nobody takes what it has left to write. -/
  write : ∀ line rest, w.task? id = some (.call line (.writing rest)) →
    (w.FindsGone id ↔ rest ≠ [] ∧ w.wires.input.reading = false)
  /-- A call that waits for a line of a kernel that writes no more finds it, with no line in
  between, exactly if nothing but blanks is left. -/
  output : ∀ line stage, w.Stranded id line stage →
    ((∃ n, (w.run (List.replicate n (.poll id))).FindsGone id ∧
      ∀ d, .took id d ∉ w.log (List.replicate n (.poll id))) ↔ w.unread = [])
  /-- Otherwise it takes the first line that is left, be it only a part of a line. -/
  line : ∀ line stage d ds, w.Stranded id line stage → w.unread = d :: ds →
    ∃ n q, w.run (List.replicate n (.poll id)) = w.withOutput q ∧
      (w.withOutput q).MissesExit id line stage d
  /-- Whoever finds that the kernel is gone reports it. -/
  exit : w.FindsGone id → w.ReportsExit id

/-- A call that writes finds that the kernel is gone exactly if nobody takes what it has left to
write. -/
theorem findsGone_writing_iff {rest : List UInt8} (hw : w.Orderly) (ht : w.Tidy)
    (htask : w.task? id = some (.call line (.writing rest))) :
    w.FindsGone id ↔ rest ≠ [] ∧ w.wires.input.reading = false := by
  -- the link has not closed the input of a kernel that a call writes to
  have hwriting : w.wires.input.writing = true := by
    have hready : w.phase = .ready := hw.fits htask
    by_contra hshut
    rw [Bool.not_eq_true, ht.input, hready] at hshut
    exact Phase.noConfusion hshut
  constructor
  · intro h
    obtain ⟨l, before, after, hbefore, hb, ha, poll⟩ := h.poll Stage.inTurn_of_leaves
    obtain ⟨rfl, rfl⟩ := call_inj htask hbefore
    rcases poll.finds hb ha with ⟨hwaits, -⟩ | ⟨bytes, hbytes, hmore, hshut⟩
    · exact absurd hwaits Bool.false_ne_true
    · obtain rfl := Stage.writing.inj hbytes
      rw [hwriting, Bool.true_and, Bool.not_eq_true] at hshut
      exact ⟨hmore, hshut⟩
  · rintro ⟨hmore, hshut⟩
    have hbroken : ¬ (w.wires.input.writing && w.wires.input.reading) = true := by
      rw [hshut, Bool.and_false]
      exact Bool.false_ne_true
    have hpoll : w.pollCall id line (.writing rest) = some (w.kernelGone id line) := by
      have hrest : ¬ rest.isEmpty = true := by simpa using hmore
      simp only [pollCall, pollWriting]
      rw [if_neg hrest, if_pos hbroken]
    have hstep : CallStep w id line (.writing rest) _ _ _ := .broken hmore hbroken
    have hself := hstep.self htask
    refine ⟨line, .writing rest, .leaving (w.wires.now + w.timing.stderrGrace), htask, rfl, ?_, rfl⟩
    rw [apply_poll ((poll_eq htask).trans hpoll)]
    exact hself

/-- In whatever state a link can be: a call that finds that the kernel is gone reports its last
words, and the conversation is over. It finds that when nobody takes its line, and at the end of the
output exactly if nothing but blanks is left there; of a line that the kernel did not finish it
makes its result, or throws it away. -/
theorem exit_reported (timing : Timing) (wires : Wires) (hopen : wires.input.writing = true)
    (hfits : wires.buffer.Fits) (events : List Event) (id : Nat) :
    ((World.new timing wires).run events).ExitReported id := by
  have hw : ((World.new timing wires).run events).Orderly := (Orderly.new timing wires).run events
  have ht : ((World.new timing wires).run events).Tidy :=
    (Tidy.new timing hopen).run (Orderly.new timing wires) events
  have hf : ((World.new timing wires).run events).wires.buffer.Fits :=
    (Orderly.new timing wires).fits_run hfits events
  generalize (World.new timing wires).run events = w at hw ht hf
  refine ⟨fun line rest htask => findsGone_writing_iff hw ht htask,
    fun line stage hs => ⟨?_, hs.finds⟩, fun line stage d ds hs hd => hs.takes hw hd,
    fun h => h.reportsExit hw hf ht⟩
  rintro ⟨n, hgone, hlog⟩
  exact hs.unread_of_findsGone hgone hlog

/-- While a call waits, the kernel reports an error, writes a blank line and dies. -/
def crash : List Event :=
  [.call 0 [10], .poll 0, .poll 0, .poll 0, .kernelReports [98], .capture, .capture,
    .kernelWrites [10], .kernelClosesOutput, .poll 0, .poll 0]

/-- The call reports what the kernel said before it went away; here the text came in before the
output ended. -/
theorem crash_reported :
    ((World.new ⟨1, 9, 2, 1, 9⟩ (.new 0 9)).run crash).FindsGone 0 ∧
    ((World.new ⟨1, 9, 2, 1, 9⟩ (.new 0 9)).run
      (crash ++ [.poll 0, .pass 2, .poll 0])).callResult? 0 =
        some (.error (.kernelStderr "b")) := by
  have hgone : ((World.new ⟨1, 9, 2, 1, 9⟩ (.new 0 9)).run crash).FindsGone 0 :=
    ⟨[10], .awaiting 9 none, .leaving 2, rfl, rfl, rfl, rfl⟩
  have hwords := ((exit_reported ⟨1, 9, 2, 1, 9⟩ (.new 0 9) rfl (Nat.zero_le _) crash 0).exit
    hgone).words [.pass 2] (by simp) rfl (by decide +kernel)
  refine ⟨hgone, ?_⟩
  rw [run_append]
  refine hwords.trans (congrArg some ?_)
  decide +kernel

/-! ## A part of a line at the end -/

/-- While a call waits, the kernel reports an error and dies in the middle of its reply. -/
def crashInReply : List Event :=
  [.call 0 [10], .poll 0, .poll 0, .poll 0, .kernelReports [98], .capture, .capture,
    .kernelWrites (Text.Utf8.bytes "\x7b\"ok\":"), .kernelClosesOutput]

/-- Nothing that is left is a document, and the kernel has said something, but the call does not
report that: it fails because what is left is no document, the conversation is given up for that
reason, and what the kernel said stays where it is. -/
theorem fragment_hides_exit :
    ((World.new ⟨1, 9, 2, 1, 9⟩ (.new 0 9)).run crashInReply).Stranded 0 [10] (.awaiting 9 none) ∧
    (∀ d ∈ ((World.new ⟨1, 9, 2, 1, 9⟩ (.new 0 9)).run crashInReply).unread,
      isDocument d = false) ∧
    ¬ IsBlankBytes ((World.new ⟨1, 9, 2, 1, 9⟩ (.new 0 9)).run crashInReply).wires.buffer.bytes ∧
    ((World.new ⟨1, 9, 2, 1, 9⟩ (.new 0 9)).run
      (crashInReply ++ [.poll 0, .poll 0, .pass 9, .poll 0])).callResult? 0 =
        some (.error (.poisoned "unparseable kernel output: \x7b\"ok\":")) ∧
    ((World.new ⟨1, 9, 2, 1, 9⟩ (.new 0 9)).run
      (crashInReply ++ [.poll 0, .poll 0, .pass 9, .poll 0])).phase =
        .poisoned (.unparseable "\x7b\"ok\":") ∧
    ((World.new ⟨1, 9, 2, 1, 9⟩ (.new 0 9)).run
      (crashInReply ++ [.poll 0, .poll 0, .pass 9, .poll 0])).wires.buffer.bytes = [98] := by
  have hunread : ((World.new ⟨1, 9, 2, 1, 9⟩ (.new 0 9)).run crashInReply).unread =
      [.line "\x7b\"ok\":"] := by decide +kernel
  refine ⟨⟨rfl, rfl, rfl, rfl⟩, fun d hd => ?_, by decide +kernel, by decide +kernel,
    by decide +kernel, by decide +kernel⟩
  rw [hunread] at hd
  rw [List.mem_singleton.mp hd]
  decide +kernel

end World
end KernelLink.Session
